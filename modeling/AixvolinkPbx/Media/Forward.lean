import AixvolinkPbx.Media.Endpoint

/-!
# The packet loop of one direction (`internal/media/session/forward.go`)

`forwardRTP` reads datagrams on the socket of one leg and writes packets on that of the other. The
tracker and the rewriter belong to the loop alone and are its state.
-/

namespace AixvolinkPbx.Media

open Prog (Only Safe only_call only_pure only_bind only_when safe_bind safe_call safe_pure safe_mono)

variable {ρ : Type} (P : PacketCodec ρ)

structure Config where
  advertisedIP : Addr
  readPollInterval : ℤ
  inactivityTimeout : ℤ
  rtcpInterval : ℤ
  summaryInterval : ℤ
  summaryTimeout : ℤ

def maxDatagramSize : ℕ := 1600

inductive ForwardError
  | released
  | deadline
  | read
  | write
  deriving DecidableEq, Repr

structure Stream where
  tracker : Tracker
  rewriter : Rewriter

def payloadMapping (input : UInt8) (source destination : RemoteConfig) : Option UInt8 :=
  if input = source.audioPT then some destination.audioPT
  else if source.hasDTMF ∧ destination.hasDTMF ∧ input = source.dtmfPT then some destination.dtmfPT
  else none

/-- A datagram that is a packet of RTP version 2 with a payload. -/
def parsePacket (bytes : List UInt8) : Option (Packet ρ) :=
  (P.unmarshal bytes).filter fun packet => packet.version = 2 && packet.payload ≠ []

/-- The `LastPacketAt` of a snapshot, if it is not zero. -/
def Tracker.lastPacketAt (t : Tracker) : Option ℤ :=
  if t.published.lastPacketNanos = 0 then none else some t.published.lastPacketNanos.toInt

def updateTimeout (cfg : Config) (leg : Leg) (tracker : Tracker) : Prog mediaSig Unit := do
  let now ← op .now
  let started ← op .loadStarted
  let reference := tracker.lastPacketAt.getD started.toInt
  op (.storeTimedOut leg (cfg.inactivityTimeout ≤ now - reference))

/-- The telephone events of a leg are decoded and counted; false if one cannot be. -/
def countDtmf (source : Leg) (remote : RemoteConfig) (packet : Packet ρ) : Prog mediaSig Bool := do
  if remote.hasDTMF && packet.payloadType = remote.dtmfPT then
    match decodeDtmf packet.payload with
    | .error _ =>
      op (.addInvalid source)
      return false
    | .ok event =>
      Prog.when event.endBit (op (.addDtmfEvent source))
      return true
  else return true

/-- The last steps of an iteration: rewrite the packet and write it. -/
def deliver (source : Leg) (st : Stream) (packet : Packet ρ) (outputPayloadType : UInt8) :
    Prog mediaSig (Stream ⊕ Option ForwardError) := do
  let (output, rewriter) := st.rewriter.rewrite packet outputPayloadType
  let st := { st with rewriter := rewriter }
  match P.marshal output with
  | none =>
    op (.addInvalid source)
    return .inl st
  | some wire =>
    let some target ← source.other.rtpTarget
      | return .inl st
    match ← op (.write source.other wire target) with
    | .written => return .inl st
    | .closed =>
      let _ ← op .ctxDone
      return .inr none
    | .failed =>
      if ← op .ctxDone then return .inr none
      else return .inr (some .write)

/-- The steps on a packet observed at `now`. -/
def forwardObserved (source : Leg) (st : Stream) (packet : Packet ρ) (wireBytes : ℕ)
    (remote : RemoteConfig) (outputPayloadType : UInt8) (now : ℤ) :
    Prog mediaSig (Stream ⊕ Option ForwardError) := do
  let (packetClass, tracker) := st.tracker.observe packet now wireBytes
  let st := { st with tracker := tracker }
  if packetClass = .duplicate then return .inl st
  if !(← source.canSend) then return .inl st
  if !(← source.other.canReceive) then return .inl st
  if !(← countDtmf source remote packet) then return .inl st
  deliver P source st packet outputPayloadType

/-- The steps of an iteration on a packet with a mapped payload type. -/
def forwardPacket (source : Leg) (st : Stream) (packet : Packet ρ) (wireBytes : ℕ)
    (remote : RemoteConfig) (outputPayloadType : UInt8) :
    Prog mediaSig (Stream ⊕ Option ForwardError) := do
  let now ← op .now
  forwardObserved P source st packet wireBytes remote outputPayloadType now

/-- The steps of an iteration on a datagram. -/
def forwardDatagram (source : Leg) (st : Stream) (bytes : List UInt8) (address : AddrPort) :
    Prog mediaSig (Stream ⊕ Option ForwardError) := do
  if !(← source.acceptsRTP address) then
    op (.addInvalid source)
    return .inl st
  match parsePacket P bytes with
  | none =>
    op (.addInvalid source)
    return .inl st
  | some packet =>
    let remote ← op (.loadRemote .forward source)
    let destinationRemote ← op (.loadRemote .forward source.other)
    match remote, destinationRemote with
    | some remote, some destinationRemote =>
      match payloadMapping packet.payloadType remote destinationRemote with
      | none =>
        op (.addInvalid source)
        return .inl st
      | some outputPayloadType =>
        forwardPacket P source st packet bytes.length remote outputPayloadType
    | _, _ => return .inl st

def forwardRound (cfg : Config) (source : Leg) (st : Stream) :
    Prog mediaSig (Stream ⊕ Option ForwardError) := do
  if !(← op (.setReadDeadline source cfg.readPollInterval)) then return .inr (some .deadline)
  match ← op (.read source) with
  | .datagram bytes address => forwardDatagram P source st bytes address
  | .closed =>
    let _ ← op .ctxDone
    return .inr none
  | .timeout =>
    if ← op .ctxDone then return .inr none
    updateTimeout cfg source st.tracker
    return .inl st
  | .failed =>
    if ← op .ctxDone then return .inr none
    return .inr (some .read)

/-- `forwardRTP`, looked at for at most `n` iterations; none is success. -/
def forwardRTP (cfg : Config) (n : ℕ) (source : Leg) (st : Stream) :
    Prog mediaSig (Option ForwardError) := do
  if !(← op (.rtpConn source)) then return some .released
  if !(← op (.rtpConn source.other)) then return some .released
  Prog.loop (forwardRound P cfg source) n st

/-- The state a direction starts with: a tracker at 8000 Hz and a fresh rewriter. -/
def Stream.new (rewriter : Rewriter) : Stream := ⟨newTracker 8000, rewriter⟩

/-! ## The operations of the loop -/

/-- The operations on one packet, beside the clock reading. -/
def MediaOp.handles : MediaOp → Bool
  | .loadRemote .. | .loadLearned .. | .casLearned .. => true
  | .addInvalid _ | .addDtmfEvent _ | .write .. | .ctxDone => true
  | _ => false

/-- The operations of the loop: none of those that configure a session. -/
def MediaOp.forwards : MediaOp → Bool
  | .storeRemote .. | .storeLearned .. | .storeMapping _ => false
  | _ => true

/-- The operations that look up how the legs are configured and where packets come from and go. -/
def MediaOp.looksUp : MediaOp → Bool
  | .loadRemote site _ => site ≠ .forward
  | .loadLearned .. | .casLearned .. => true
  | _ => false

/-- Those of them that find out where packets come from and go. -/
def MediaOp.locates : MediaOp → Bool
  | .loadRemote site _ => site = .accepts || site = .target
  | .loadLearned .. | .casLearned .. => true
  | _ => false

theorem MediaOp.looksUp_of_locates (e : MediaOp) (h : e.locates = true) : e.looksUp = true := by
  cases e with
  | loadRemote site leg => cases site <;> first | rfl | cases h
  | loadLearned | casLearned => rfl
  | _ => cases h

theorem MediaOp.handles_of_looksUp (e : MediaOp) (h : e.looksUp = true) : e.handles = true := by
  cases e <;> first | rfl | cases h

theorem MediaOp.forwards_of_handles (e : MediaOp) (h : e.handles = true) : e.forwards = true := by
  cases e <;> first | rfl | cases h

variable {e : MediaOp}

theorem handles_op (h : e.handles = true) : Only (MediaOp.handles · = true) (op e) :=
  only_call.mpr h

theorem forwards_op (h : e.forwards = true) : Only (MediaOp.forwards · = true) (op e) :=
  only_call.mpr h

variable (cfg : Config) (source : Leg)

theorem looksUp_op (h : e.looksUp = true) : Only (MediaOp.looksUp · = true) (op e) :=
  only_call.mpr h

theorem locates_op (h : e.locates = true) : Only (MediaOp.locates · = true) (op e) :=
  only_call.mpr h

theorem locates_acceptsRTP (leg : Leg) (address : AddrPort) :
    Only (MediaOp.locates · = true) (leg.acceptsRTP address) := by
  unfold Leg.acceptsRTP Leg.accepts
  refine only_bind (locates_op rfl) fun remote => ?_
  cases remote with
  | none => exact only_pure
  | some remote =>
    dsimp only
    split_ifs
    · exact only_pure
    refine only_bind (locates_op rfl) fun learned => ?_
    split_ifs
    · exact only_bind (locates_op rfl) fun _ => only_bind (locates_op rfl) fun _ => only_pure
    · exact only_pure

theorem locates_rtpTarget (leg : Leg) : Only (MediaOp.locates · = true) leg.rtpTarget := by
  unfold Leg.rtpTarget Leg.targetOf
  refine only_bind (locates_op rfl) fun remote => ?_
  cases remote with
  | none => exact only_pure
  | some remote =>
    refine only_bind (locates_op rfl) fun port => ?_
    split_ifs
    · exact only_pure
    · exact only_pure

theorem looksUp_acceptsRTP (leg : Leg) (address : AddrPort) :
    Only (MediaOp.looksUp · = true) (leg.acceptsRTP address) :=
  (locates_acceptsRTP leg address).mono MediaOp.looksUp_of_locates

theorem looksUp_rtpTarget (leg : Leg) : Only (MediaOp.looksUp · = true) leg.rtpTarget :=
  (locates_rtpTarget leg).mono MediaOp.looksUp_of_locates

theorem looksUp_canSend (leg : Leg) : Only (MediaOp.looksUp · = true) leg.canSend :=
  only_bind (looksUp_op rfl) fun _ => only_pure

theorem looksUp_canReceive (leg : Leg) : Only (MediaOp.looksUp · = true) leg.canReceive :=
  only_bind (looksUp_op rfl) fun _ => only_pure

theorem handles_countDtmf (remote : RemoteConfig) (packet : Packet ρ) :
    Only (MediaOp.handles · = true) (countDtmf source remote packet) := by
  unfold countDtmf
  split_ifs
  · split
    · exact only_bind (handles_op rfl) fun _ => only_pure
    · exact only_bind (only_when (handles_op rfl)) fun _ => only_pure
  · exact only_pure

theorem handles_deliver (st : Stream) (packet : Packet ρ) (outputPayloadType : UInt8) :
    Only (MediaOp.handles · = true) (deliver P source st packet outputPayloadType) := by
  unfold deliver
  dsimp only
  split
  · exact only_bind (handles_op rfl) fun _ => only_pure
  refine only_bind ((looksUp_rtpTarget _).mono MediaOp.handles_of_looksUp) fun target => ?_
  cases target with
  | none => exact only_pure
  | some target =>
    refine only_bind (handles_op rfl) fun r => ?_
    cases r with
    | written => exact only_pure
    | closed => exact only_bind (handles_op rfl) fun _ => only_pure
    | failed =>
      refine only_bind (handles_op rfl) fun done => ?_
      split_ifs
      · exact only_pure
      · exact only_pure

theorem handles_forwardObserved (st : Stream) (packet : Packet ρ) (wireBytes : ℕ)
    (remote : RemoteConfig) (outputPayloadType : UInt8) (now : ℤ) :
    Only (MediaOp.handles · = true)
      (forwardObserved P source st packet wireBytes remote outputPayloadType now) := by
  unfold forwardObserved
  dsimp only
  split_ifs
  · exact only_pure
  refine only_bind ((looksUp_canSend _).mono MediaOp.handles_of_looksUp) fun sends => ?_
  split_ifs
  · exact only_pure
  refine only_bind ((looksUp_canReceive _).mono MediaOp.handles_of_looksUp) fun receives => ?_
  split_ifs
  · exact only_pure
  refine only_bind (handles_countDtmf source remote packet) fun decodes => ?_
  split_ifs
  · exact only_pure
  · exact handles_deliver P source _ _ _

theorem forwards_forwardPacket (st : Stream) (packet : Packet ρ) (wireBytes : ℕ)
    (remote : RemoteConfig) (outputPayloadType : UInt8) :
    Only (MediaOp.forwards · = true)
      (forwardPacket P source st packet wireBytes remote outputPayloadType) := by
  refine only_bind (forwards_op rfl) fun now => ?_
  exact (handles_forwardObserved P source _ _ _ _ _ _).mono MediaOp.forwards_of_handles

theorem forwards_forwardDatagram (st : Stream) (bytes : List UInt8) (address : AddrPort) :
    Only (MediaOp.forwards · = true) (forwardDatagram P source st bytes address) := by
  unfold forwardDatagram
  refine only_bind ((looksUp_acceptsRTP _ _).mono fun e he =>
    e.forwards_of_handles (e.handles_of_looksUp he)) fun accepted => ?_
  split_ifs
  · exact only_bind (forwards_op rfl) fun _ => only_pure
  split
  · exact only_bind (forwards_op rfl) fun _ => only_pure
  refine only_bind (forwards_op rfl) fun remote => only_bind (forwards_op rfl) fun destination => ?_
  split
  · split
    · exact only_bind (forwards_op rfl) fun _ => only_pure
    · exact forwards_forwardPacket P source _ _ _ _ _
  · exact only_pure

theorem forwards_forwardRound (st : Stream) :
    Only (MediaOp.forwards · = true) (forwardRound P cfg source st) := by
  unfold forwardRound updateTimeout
  refine only_bind (forwards_op rfl) fun ok => ?_
  split_ifs
  · exact only_pure
  refine only_bind (forwards_op rfl) fun r => ?_
  cases r with
  | datagram bytes address => exact forwards_forwardDatagram P source _ _ _
  | closed => exact only_bind (forwards_op rfl) fun _ => only_pure
  | timeout =>
    refine only_bind (forwards_op rfl) fun done => ?_
    split_ifs
    · exact only_pure
    refine only_bind (only_bind (forwards_op rfl) fun now => ?_) fun _ => only_pure
    exact only_bind (forwards_op rfl) fun _ => forwards_op rfl
  | failed =>
    refine only_bind (forwards_op rfl) fun done => ?_
    split_ifs
    · exact only_pure
    · exact only_pure

theorem forwards_forwardRTP (n : ℕ) (st : Stream) :
    Only (MediaOp.forwards · = true) (forwardRTP P cfg n source st) := by
  unfold forwardRTP
  refine only_bind (forwards_op rfl) fun ok => ?_
  split_ifs
  · exact only_pure
  refine only_bind (forwards_op rfl) fun ok => ?_
  split_ifs
  · exact only_pure
  · exact Prog.only_loop (forwards_forwardRound P cfg source) n st

/-! ## Observers of the loop -/

/-- The operations with which the loop waits for packets and looks whether it is over. -/
def MediaOp.waits : MediaOp → Bool
  | .rtpConn _ | .setReadDeadline .. | .ctxDone => true
  | _ => false

theorem waits_op (h : e.waits = true) : Only (MediaOp.waits · = true) (op e) :=
  only_call.mpr h

section Observers

variable {φ : Type} {M : Monitor mediaSig φ} {I : Stream → φ → Prop} {s : φ} {st : Stream}
  {P cfg source}

def Continues (I : Stream → φ → Prop) (x : Stream ⊕ Option ForwardError) (s : φ) : Prop :=
  ∀ st, x = .inl st → I st s

theorem continues_inr (error : Option ForwardError) : Continues I (.inr error) s := by
  rintro _ ⟨⟩

theorem continues_inl : Continues I (.inl st) s ↔ I st s := by
  constructor
  · exact fun h => h st rfl
  · rintro h _ ⟨⟩
    exact h

/-- The observer does not look at the operations the loop waits with. -/
def Rests (M : Monitor mediaSig φ) (s : φ) : Prop :=
  M.good s ∧ ∀ e r, e.waits = true → M.next s e r = s

theorem Rests.bind {α β : Type} {p : Prog mediaSig α} {f : α → Prog mediaSig β}
    {Q : β → φ → Prop}
    (hs : Rests M s) (h : Only (MediaOp.waits · = true) p) (hf : ∀ a, Safe M s (f a) Q) :
    Safe M s (p >>= f) Q := h.safe_bind hs.1 (fun e r he => hs.2 e r he) hf

/-- An iteration, for an observer that rests before it and after it has read. -/
theorem safe_forwardRound (hs : Rests M s) (hread : ∀ r, Rests M (M.next s (.read source) r))
    (hdatagram : ∀ bytes address, Safe M (M.next s (.read source) (.datagram bytes address))
      (forwardDatagram P source st bytes address) (Continues I))
    (hpoll : Safe M (M.next s (.read source) .timeout) (updateTimeout cfg source st.tracker)
      fun _ s' => I st s') :
    Safe M s (forwardRound P cfg source st) (Continues I) := by
  unfold forwardRound
  refine hs.bind (waits_op rfl) fun deadline => ?_
  split_ifs
  · exact safe_pure.mpr (continues_inr _)
  rw [safe_bind, safe_call]
  intro r _
  refine ⟨(hread r).1, ?_⟩
  cases r with
  | datagram bytes address => exact hdatagram bytes address
  | closed => exact (hread _).bind (waits_op rfl) fun _ => safe_pure.mpr (continues_inr _)
  | timeout =>
    refine (hread _).bind (waits_op rfl) fun done => ?_
    split_ifs
    · exact safe_pure.mpr (continues_inr _)
    refine .bind hpoll fun _ s' hs' => ?_
    exact safe_pure.mpr (continues_inl.mpr hs')
  | failed =>
    refine (hread _).bind (waits_op rfl) fun done => ?_
    split_ifs
    · exact safe_pure.mpr (continues_inr _)
    · exact safe_pure.mpr (continues_inr _)

theorem safe_forwardRTP (hrests : ∀ st s, I st s → Rests M s)
    (hround : ∀ st s, I st s → Safe M s (forwardRound P cfg source st) (Continues I)) (n : ℕ)
    (hs : I st s) : Safe M s (forwardRTP P cfg n source st) fun _ _ => True := by
  unfold forwardRTP
  refine (hrests _ _ hs).bind (waits_op rfl) fun connected => ?_
  split_ifs
  · exact safe_pure.mpr trivial
  refine (hrests _ _ hs).bind (waits_op rfl) fun connected => ?_
  split_ifs
  · exact safe_pure.mpr trivial
  refine Prog.safe_loop (I := I) (fun st s h => ?_) n hs
  refine safe_mono (hround st s h) fun x s' hx => ?_
  cases x with
  | inl st' => exact hx st' rfl
  | inr _ => trivial

end Observers

end AixvolinkPbx.Media

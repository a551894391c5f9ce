import AixvolinkPbx.Sdp.Relay
import Mathlib.Data.List.Find

/-!
# What `ParseAudio` accepts (`internal/sip/sdp/audio.go`)

The endpoint of an accepted body is put together from the media line, the connection and direction of
two levels, an optional RTCP port and the codec table.

1. The endpoint can be used for RTP and RTCP (`Endpoint.Usable`), but for the RTCP port that follows
   the RTP port 65535 (`parseAudio_usable_iff`).
2. The connection of the media level hides that of the session level. The direction does not: of all
   direction attributes of both levels the first in the order of `directions` is taken
   (`mediaDirection_eq`, `media_overrides_session`).
-/

namespace AixvolinkPbx.Sdp

/-! ## Endpoints that can be used -/

structure Endpoint.Usable (endpoint : Endpoint) : Prop where
  valid : endpoint.rtp.addr.isValid = true
  specified : endpoint.rtp.addr.isUnspecified = false
  sameAddress : endpoint.rtcp.addr = endpoint.rtp.addr
  rtpPort : 1 ≤ endpoint.rtp.port.toNat ∧ endpoint.rtp.port.toNat ≤ 65535
  rtcpPort : 1 ≤ endpoint.rtcp.port.toNat ∧ endpoint.rtcp.port.toNat ≤ 65535
  direction : endpoint.direction ∈ directions
  clockRate : ∀ codec ∈ endpoint.codecs, codec.clockRate = 8000
  name : ∀ codec ∈ endpoint.codecs,
    codec.name = "PCMU" ∨ codec.name = "PCMA" ∨ codec.name = "TELEPHONE-EVENT"
  payloadType : ∀ codec ∈ endpoint.codecs, codec.payloadType.toNat ≤ 127
  unambiguous : ∀ c ∈ endpoint.codecs, ∀ d ∈ endpoint.codecs, c.payloadType = d.payloadType → c = d
  audio : ∃ codec ∈ endpoint.codecs, codec.name = "PCMU" ∨ codec.name = "PCMA"

theorem mediaDirection_mem (description : SessionDescription) (media : MediaDescription) :
    mediaDirection description media ∈ directions := by
  unfold mediaDirection
  cases hfound : directions.find? fun d => (attributeValue media.attributes d.text).isSome ||
      (attributeValue description.attributes d.text).isSome with
  | none => simp [directions]
  | some d => exact List.mem_of_find?_eq_some hfound

variable {media : MediaDescription}

/-- A port of the RTCP attribute is never zero. -/
theorem rtcpPort_ne_zero {rtpPort port : UInt16} (h : rtcpPort media rtpPort = .ok port)
    (hattribute : attributeValue media.attributes "rtcp" ≠ none) :
    port.toNat ≠ 0 := by
  unfold rtcpPort at h
  split at h
  · next hnone => exact absurd hnone hattribute
  · split at h
    · cases h
    · split at h
      · cases h
      · next parsed hparsed =>
        split_ifs at h with hzero
        cases h
        have hlt := Text.lt_of_parseUint hparsed
        rw [UInt16.toNat_ofNat']
        omega

theorem rtcpPort_default {rtpPort port : UInt16} (h : rtcpPort media rtpPort = .ok port)
    (hattribute : attributeValue media.attributes "rtcp" = none) :
    port = rtpPort + 1 := by
  unfold rtcpPort at h
  rw [hattribute] at h
  exact (Except.ok.inj h).symm

namespace Parses

variable {C : Codecs} {description : SessionDescription} {endpoint : Endpoint}

theorem rtpPort_toNat (h : Parses C description media endpoint) :
    (endpoint.rtp.port.toNat : ℤ) = media.port := by
  have hport := h.port
  have hofInt : endpoint.rtp.port.toNat = (media.port % 2 ^ 16).toNat % 2 ^ 16 := by
    rw [h.rtpPort]
    exact UInt16.toNat_ofNat'
  omega

/-- The RTCP port is zero only as the successor of the last port. -/
theorem rtcpPort_eq_zero_iff (h : Parses C description media endpoint) :
    endpoint.rtcp.port.toNat = 0 ↔
      media.port = 65535 ∧ attributeValue media.attributes "rtcp" = none := by
  have hrtp := h.rtpPort_toNat
  have hrange := h.port
  by_cases hattribute : attributeValue media.attributes "rtcp" = none
  · have hsucc : endpoint.rtcp.port.toNat = (endpoint.rtp.port.toNat + 1) % 2 ^ 16 := by
      rw [rtcpPort_default h.rtcpPort hattribute]
      exact UInt16.toNat_add _ _
    constructor
    · intro hzero
      exact ⟨by omega, hattribute⟩
    · rintro ⟨hlast, -⟩
      omega
  · have hne := rtcpPort_ne_zero h.rtcpPort hattribute
    constructor
    · intro hzero
      exact absurd hzero hne
    · rintro ⟨-, hnone⟩
      exact absurd hnone hattribute

theorem usable_iff (h : Parses C description media endpoint)
    (hvalid : endpoint.rtp.addr.isValid = true) :
    endpoint.Usable ↔ ¬(media.port = 65535 ∧ attributeValue media.attributes "rtcp" = none) := by
  rw [← h.rtcpPort_eq_zero_iff]
  constructor
  · intro husable hzero
    have := husable.rtcpPort
    omega
  · intro hne
    have hrtp := h.rtpPort_toNat
    have hrange := h.port
    have hrtcp := endpoint.rtcp.port.toNat_lt
    have hcodecs := relayable_of_parseCodecs h.codecs
    constructor
    · exact hvalid
    · exact h.specified
    · exact h.sameAddress
    · omega
    · omega
    · rw [h.direction]
      exact mediaDirection_mem description media
    · exact fun codec hcodec => clockRate_of_supported (hcodecs.supported codec hcodec)
    · exact fun codec hcodec => name_cases (hcodecs.supported codec hcodec)
    · intro codec hcodec
      have := hcodecs.sevenBits codec hcodec
      omega
    · exact hcodecs.unambiguous
    · simpa [hasAudioCodec] using hcodecs.audio

end Parses

/-- **Accepted endpoints.** Given that `netip.ParseAddr` returns valid addresses, an endpoint
`ParseAudio` returns can be used exactly if its body does not have the port 65535 without an RTCP
attribute. -/
theorem parseAudio_usable_iff {C : Codecs}
    (hC : ∀ text address, C.parseAddr text = some address → address.isValid = true)
    {body : Body} {endpoint : Endpoint} (h : parseAudio C body = .ok endpoint) :
    endpoint.Usable ↔ ∀ description media, C.unmarshal body = some description →
      audioDescription description = some media → media.port = 65535 →
      attributeValue media.attributes "rtcp" ≠ none := by
  obtain ⟨description, media, hbody, hparses⟩ := parses_of_parseAudio h
  rw [hparses.usable_iff (hC _ _ hparses.address)]
  constructor
  · intro hne description' media' hbody' haudio' hport hnone
    cases hbody.symm.trans hbody'
    cases hparses.audio.symm.trans haudio'
    exact hne ⟨hport, hnone⟩
  · rintro hall ⟨hport, hnone⟩
    exact hall description media hbody hparses.audio hport hnone

/-- The description of a handset with another port and further attributes. -/
def handsetWith (port : ℤ) (session media : List Attribute) : SessionDescription :=
  { handset with
    attributes := session
    mediaDescriptions := handset.mediaDescriptions.map fun m =>
      { m with port := port, attributes := m.attributes ++ media } }

def encodingOn (d : SessionDescription) : Codecs := encodingOf [d] [0x0A000009]

theorem unmarshal_encodingOn (d : SessionDescription) :
    (encodingOn d).unmarshal (ascii (lines d)) = some d := by
  simp [encodingOn, encodingOf]

theorem isValid_of_encodingOn {d : SessionDescription} (text : String) (address : Addr)
    (h : (encodingOn d).parseAddr text = some address) : address.isValid = true := by
  obtain ⟨bits, -, rfl⟩ := Option.map_eq_some_iff.mp h
  rfl

theorem parseAudio_usable_handset : ∃ endpoint,
    parseAudio (encodingOn (handsetWith 65534 [] [])) (ascii (lines (handsetWith 65534 [] []))) =
      .ok endpoint ∧ endpoint.Usable := by
  have hok : parseAudio (encodingOn (handsetWith 65534 [] [])) (ascii (lines (handsetWith 65534 [] []))) =
      .ok ⟨⟨.v4 0x0A000009, 65534⟩, ⟨.v4 0x0A000009, 65535⟩, .sendRecv, handsetCodecs⟩ := by
    decide +kernel
  refine ⟨_, hok, (parseAudio_usable_iff isValid_of_encodingOn hok).mpr ?_⟩
  intro description media hbody haudio hport
  cases (unmarshal_encodingOn _).symm.trans hbody
  cases haudio
  exact absurd hport (by decide)

/-- The port after the last one. -/
theorem parseAudio_rtcpPort_zero : ∃ endpoint,
    parseAudio (encodingOn (handsetWith 65535 [] [])) (ascii (lines (handsetWith 65535 [] []))) =
      .ok endpoint ∧ endpoint.rtcp = ⟨.v4 0x0A000009, 0⟩ ∧ ¬endpoint.Usable := by
  refine ⟨⟨⟨.v4 0x0A000009, 65535⟩, ⟨.v4 0x0A000009, 0⟩, .sendRecv, handsetCodecs⟩, ?_,
    rfl, ?_⟩
  · decide +kernel
  · intro husable
    exact absurd husable.rtcpPort.1 (by decide)

/-! ## The two levels -/

/-- The directions among the attributes of one level. -/
def levelDirections (attributes : List Attribute) : List Direction :=
  attributes.filterMap fun a => directions.find? (·.text = a.key)

/-- The first of some directions in the order they are looked for. -/
def strictest (found : List Direction) : Direction :=
  (directions.find? (· ∈ found)).getD .sendRecv

/-- The place of a direction in the order they are looked for. -/
def Direction.rank (d : Direction) : ℕ := directions.idxOf d

variable {d : Direction}

theorem Direction.text_injective {e : Direction} (h : d.text = e.text) : d = e := by
  cases d <;> cases e <;> first | rfl | exact absurd h (by decide)

theorem find?_text {key : String} :
    directions.find? (·.text = key) = some d ↔ d ∈ directions ∧ d.text = key := by
  constructor
  · intro h
    exact ⟨List.mem_of_find?_eq_some h, by simpa using List.find?_some h⟩
  · rintro ⟨hd, rfl⟩
    cases hfound : directions.find? (·.text = d.text) with
    | none => exact absurd (List.find?_eq_none.mp hfound d hd) (by simp)
    | some e =>
      have htext : e.text = d.text := by simpa using List.find?_some hfound
      rw [Direction.text_injective htext]

theorem mem_directions_of_mem_levelDirections {attributes : List Attribute}
    (h : d ∈ levelDirections attributes) : d ∈ directions := by
  obtain ⟨a, -, ha⟩ := List.mem_filterMap.mp h
  exact (find?_text.mp ha).1

theorem isSome_attributeValue {attributes : List Attribute} (hd : d ∈ directions) :
    (attributeValue attributes d.text).isSome = decide (d ∈ levelDirections attributes) := by
  rw [Bool.eq_iff_iff, decide_eq_true_eq, levelDirections, List.mem_filterMap, attributeValue,
    Option.isSome_map, List.find?_isSome]
  simp only [find?_text, decide_eq_true_eq]
  constructor
  · rintro ⟨a, ha, hkey⟩
    exact ⟨a, ha, hd, hkey.symm⟩
  · rintro ⟨a, ha, -, hkey⟩
    exact ⟨a, ha, hkey.symm⟩

/-- The levels are not told apart. -/
theorem mediaDirection_eq (description : SessionDescription) (media : MediaDescription) :
    mediaDirection description media =
      strictest (levelDirections media.attributes ++ levelDirections description.attributes) := by
  unfold mediaDirection strictest
  congr 1
  refine List.find?_congr fun d hd => ?_
  rw [isSome_attributeValue hd, isSome_attributeValue hd]
  simp only [List.mem_append, Bool.decide_or]

variable {found : List Direction}

theorem rank_le_of_find? {e : Direction} (h : directions.find? (· ∈ found) = some d)
    (he : e ∈ found) : d.rank ≤ e.rank := by
  obtain ⟨-, before, after, hsplit, hbefore⟩ := List.find?_eq_some_iff_append.mp h
  have hnot : ∀ {x}, x ∈ found → x ∉ before := by
    intro x hx hmem
    simpa [hx] using hbefore x hmem
  have hd : d ∈ found := by simpa using List.find?_some h
  rw [Direction.rank, Direction.rank, hsplit, List.idxOf_append_of_notMem (hnot hd),
    List.idxOf_append_of_notMem (hnot he), List.idxOf_cons_self]
  omega

/-- A direction is the strictest exactly if none is looked for before it. -/
theorem strictest_eq_iff (hd : d ∈ found) (hdirection : d ∈ directions) :
    strictest found = d ↔ ∀ e ∈ found, d.rank ≤ e.rank := by
  cases hfirst : directions.find? (· ∈ found) with
  | none => exact absurd (List.find?_eq_none.mp hfirst d hdirection) (by simpa using hd)
  | some first =>
    have hmem : first ∈ found := by simpa using List.find?_some hfirst
    rw [strictest, hfirst, Option.getD_some]
    constructor
    · rintro rfl e he
      exact rank_le_of_find? hfirst he
    · intro hle
      have hrank : d.rank = first.rank := le_antisymm (hle first hmem) (rank_le_of_find? hfirst hd)
      exact ((List.idxOf_inj hdirection).mp hrank).symm

theorem strictest_of_inactive (h : .inactive ∈ found) :
    strictest found = .inactive := by
  simp [strictest, directions, h]

/-- `ParseAudio` on a body that is read as the description. -/
def parseDescription (C : Codecs) (description : SessionDescription) : Except SdpError Endpoint :=
  parseAudio { C with unmarshal := fun _ => some description } []

theorem Parses.parseDescription {C : Codecs} {description : SessionDescription}
    {endpoint : Endpoint} (h : Parses C description media endpoint) :
    parseDescription C description = .ok endpoint := by
  have hparses : Parses { C with unmarshal := fun _ => some description } description media endpoint :=
    ⟨h.audio, h.port, h.profile, h.address, h.specified, h.rtpPort, h.sameAddress, h.rtcpPort,
      h.direction, h.codecs⟩
  exact hparses.parseAudio rfl

def isDirection (a : Attribute) : Bool := (directions.find? (·.text = a.key)).isSome

/-- Another description with other direction attributes of the session. -/
structure OtherDirections (description other : SessionDescription) : Prop where
  attributes : other.attributes.filter (!isDirection ·) =
    description.attributes.filter (!isDirection ·)
  rest : other = { description with attributes := other.attributes }

theorem levelDirections_others (attributes : List Attribute) :
    levelDirections (attributes.filter (!isDirection ·)) = [] := by
  rw [levelDirections, List.filterMap_eq_nil_iff]
  intro a ha
  simpa [isDirection] using (List.mem_filter.mp ha).2

section Levels

variable {C : Codecs} {description : SessionDescription} {endpoint : Endpoint}

/-- With other direction attributes of the session, nothing changes but the direction. -/
theorem Parses.otherDirections (h : Parses C description media endpoint)
    {other : SessionDescription} (hother : OtherDirections description other) :
    Sdp.parseDescription C other =
      .ok { endpoint with direction := mediaDirection other media } := by
  have hrest := hother.rest
  have hparses : Parses C other media { endpoint with direction := mediaDirection other media } := by
    constructor
    · rw [hrest]
      exact h.audio
    · exact h.port
    · exact h.profile
    · rw [hrest]
      exact h.address
    · exact h.specified
    · exact h.rtpPort
    · exact h.sameAddress
    · exact h.rtcpPort
    · rfl
    · exact h.codecs
  exact hparses.parseDescription

/-- The connection of the session does not matter beside one of the media description. -/
theorem Parses.otherConnection (h : Parses C description media endpoint) {c : Connection}
    (hc : media.connection = some c) (connection : Option Connection) :
    Sdp.parseDescription C { description with connection := connection } = .ok endpoint := by
  have htext : ∀ d : SessionDescription, addressText d media = c.address := by
    intro d
    rw [addressText, hc]
  have hparses : Parses C { description with connection := connection } media endpoint := by
    refine ⟨h.audio, h.port, h.profile, ?_, h.specified, h.rtpPort, h.sameAddress, h.rtcpPort,
      h.direction, h.codecs⟩
    rw [htext, ← htext description]
    exact h.address
  exact hparses.parseDescription

/-- One direction of the media description holds whatever the session says only if it is the first
that is looked for. -/
theorem Parses.direction_fixed_iff (h : Parses C description media endpoint) {dir : Direction}
    (hdir : levelDirections media.attributes = [dir]) :
    (∀ other, OtherDirections description other → ∃ endpoint', Sdp.parseDescription C other =
        .ok endpoint' ∧ endpoint'.direction = endpoint.direction) ↔ dir = .inactive := by
  have hmem : dir ∈ directions :=
    mem_directions_of_mem_levelDirections (hdir ▸ List.mem_singleton_self dir)
  have hlevel : ∀ other : SessionDescription,
      mediaDirection other media = strictest (dir :: levelDirections other.attributes) := by
    intro other
    rw [mediaDirection_eq, hdir]
    rfl
  constructor
  · intro hfixed
    -- the session without directions, and with the first one
    have hsession : ∀ directed : List Attribute, directed.filter (!isDirection ·) = [] →
        endpoint.direction = strictest (dir :: levelDirections (directed ++
          description.attributes.filter (!isDirection ·))) := by
      intro directed hdirected
      have hother : OtherDirections description
          { description with
            attributes := directed ++ description.attributes.filter (!isDirection ·) } := by
        refine ⟨?_, rfl⟩
        rw [List.filter_append, hdirected, List.nil_append, List.filter_filter]
        simp
      obtain ⟨endpoint', hok, hsame⟩ := hfixed _ hother
      rw [h.otherDirections hother] at hok
      rw [← hsame, ← Except.ok.inj hok, hlevel]
    have hnone : endpoint.direction = dir := by
      rw [hsession [] rfl, List.nil_append, levelDirections_others,
        strictest_eq_iff (List.mem_singleton_self dir) hmem]
      simp
    have hinactive : endpoint.direction = .inactive := by
      rw [hsession [⟨"inactive", ""⟩] (by decide)]
      exact strictest_of_inactive (List.mem_cons_of_mem _ List.mem_cons_self)
    rw [← hnone, hinactive]
  · rintro rfl other hother
    refine ⟨_, h.otherDirections hother, ?_⟩
    rw [h.direction, hlevel, hlevel, strictest_of_inactive List.mem_cons_self,
      strictest_of_inactive List.mem_cons_self]

/-- **Media level and session level.** The connection of the media description hides that of the
session, and that of the session is used only if there is none. Of the directions, one of the media
description is returned exactly if the session has none that is looked for before it; it is returned
whatever the session says exactly if it is `inactive`. Without one of the media description that of the
session is returned, and `sendrecv` without any. -/
theorem media_overrides_session {body : Body} (hbody : C.unmarshal body = some description)
    (haudio : audioDescription description = some media) (h : parseAudio C body = .ok endpoint) :
    (∀ dir, levelDirections media.attributes = [dir] →
      ((∀ other, OtherDirections description other → ∃ endpoint', parseDescription C other =
          .ok endpoint' ∧ endpoint'.direction = endpoint.direction) ↔ dir = .inactive) ∧
      (endpoint.direction = dir ↔
        ∀ s ∈ levelDirections description.attributes, dir.rank ≤ s.rank)) ∧
    (levelDirections media.attributes = [] →
      endpoint.direction = strictest (levelDirections description.attributes) ∧
        (levelDirections description.attributes = [] → endpoint.direction = .sendRecv)) ∧
    (∀ c, media.connection = some c → C.parseAddr c.address = some endpoint.rtp.addr ∧
      ∀ connection, parseDescription C { description with connection := connection } =
        .ok endpoint) ∧
    (media.connection = none → ∀ c, description.connection = some c →
      C.parseAddr c.address = some endpoint.rtp.addr) := by
  obtain ⟨description', media', hbody', hparses⟩ := parses_of_parseAudio h
  cases hbody'.symm.trans hbody
  cases hparses.audio.symm.trans haudio
  have hdirection := hparses.direction
  rw [mediaDirection_eq] at hdirection
  have haddress := hparses.address
  refine ⟨?_, ?_, ?_, ?_⟩
  · intro dir hdir
    have hmem : dir ∈ directions :=
      mem_directions_of_mem_levelDirections (hdir ▸ List.mem_singleton_self dir)
    refine ⟨hparses.direction_fixed_iff hdir, ?_⟩
    rw [hdirection, hdir, strictest_eq_iff (List.mem_append_left _ (List.mem_singleton_self dir)) hmem]
    simp
  · intro hnone
    rw [hdirection, hnone, List.nil_append]
    refine ⟨rfl, fun hsession => ?_⟩
    rw [hsession]
    rfl
  · intro c hc
    refine ⟨?_, hparses.otherConnection hc⟩
    rwa [addressText, hc] at haddress
  · intro hnone c hc
    rwa [addressText, hnone, hc] at haddress

end Levels

/-- A handset that wants to receive only, in a session that sends and receives. -/
theorem media_overrides_recvOnly : ∃ endpoint,
    parseAudio (encodingOn (handsetWith 4000 [⟨"sendrecv", ""⟩] [⟨"recvonly", ""⟩]))
      (ascii (lines (handsetWith 4000 [⟨"sendrecv", ""⟩] [⟨"recvonly", ""⟩]))) = .ok endpoint ∧
      endpoint.direction = .recvOnly := by
  have hok : parseAudio (encodingOn (handsetWith 4000 [⟨"sendrecv", ""⟩] [⟨"recvonly", ""⟩]))
      (ascii (lines (handsetWith 4000 [⟨"sendrecv", ""⟩] [⟨"recvonly", ""⟩]))) =
      .ok { handsetEndpoint with direction := .recvOnly } := by decide +kernel
  have hlevels := media_overrides_session (unmarshal_encodingOn _) rfl hok
  exact ⟨_, hok, (hlevels.1 .recvOnly (by decide +kernel)).2.mpr (by decide +kernel)⟩

/-- A session attribute puts a media description on hold that has its own direction. -/
theorem session_overrides_media :
    OtherDirections (handsetWith 4000 [] [⟨"sendrecv", ""⟩])
        (handsetWith 4000 [⟨"inactive", ""⟩] [⟨"sendrecv", ""⟩]) ∧
      parseAudio (encodingOn (handsetWith 4000 [] [⟨"sendrecv", ""⟩]))
        (ascii (lines (handsetWith 4000 [] [⟨"sendrecv", ""⟩]))) =
        .ok { handsetEndpoint with direction := .sendRecv } ∧
      parseAudio (encodingOn (handsetWith 4000 [⟨"inactive", ""⟩] [⟨"sendrecv", ""⟩]))
        (ascii (lines (handsetWith 4000 [⟨"inactive", ""⟩] [⟨"sendrecv", ""⟩]))) =
        .ok { handsetEndpoint with direction := .inactive } := by
  refine ⟨⟨by decide +kernel, rfl⟩, ?_, ?_⟩
  · decide +kernel
  · decide +kernel

end AixvolinkPbx.Sdp

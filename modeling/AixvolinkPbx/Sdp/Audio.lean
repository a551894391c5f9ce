import AixvolinkPbx.Base
import AixvolinkPbx.Lib.Table
import AixvolinkPbx.Lib.Text

/-!
# Audio descriptions (`internal/sip/sdp/audio.go`)

`ParseAudio` and `BuildAudio` between the bodies of SIP messages and the endpoints the media session
works with, and `Negotiate` between an offer and its answer.

The encoding of session descriptions is that of another package and a parameter (`Codecs`), like the
text form of addresses; the descriptions themselves have the fields that are read or written here.
-/

namespace AixvolinkPbx.Sdp

abbrev Body := List UInt8

/-! ## Descriptions of the SDP package -/

structure Attribute where
  key : String
  value : String
  deriving DecidableEq, Repr

/-- `ConnectionInformation` with its address. -/
structure Connection where
  networkType : String
  addressType : String
  address : String
  deriving DecidableEq, Repr

structure MediaDescription where
  media : String
  port : ℤ
  protos : List String
  formats : List String
  connection : Option Connection
  attributes : List Attribute
  deriving DecidableEq, Repr

structure Origin where
  username : String
  sessionID : ℤ
  sessionVersion : ℤ
  networkType : String
  addressType : String
  unicastAddress : String
  deriving DecidableEq, Repr

structure SessionDescription where
  origin : Origin
  sessionName : String
  connection : Option Connection
  attributes : List Attribute
  mediaDescriptions : List MediaDescription
  deriving DecidableEq, Repr

/-- The value of the first attribute with a key. -/
def attributeValue (attributes : List Attribute) (key : String) : Option String :=
  (attributes.find? (·.key = key)).map (·.value)

/-- The encodings of other packages. -/
structure Codecs where
  unmarshal : Body → Option SessionDescription
  marshal : SessionDescription → Option Body
  parseAddr : String → Option Addr
  addrString : Addr → String

/-! ## Endpoints -/

/-- `Direction`; `unset` is the empty text. -/
inductive Direction
  | unset
  | sendRecv
  | sendOnly
  | recvOnly
  | inactive
  deriving DecidableEq, Repr

def Direction.text : Direction → String
  | .unset => ""
  | .sendRecv => "sendrecv"
  | .sendOnly => "sendonly"
  | .recvOnly => "recvonly"
  | .inactive => "inactive"

structure Codec where
  name : String
  payloadType : UInt8
  clockRate : UInt32
  deriving DecidableEq, Repr

structure Endpoint where
  rtp : AddrPort
  rtcp : AddrPort
  direction : Direction
  codecs : List Codec
  deriving DecidableEq, Repr

def Endpoint.zero : Endpoint := ⟨⟨.invalid, 0⟩, ⟨.invalid, 0⟩, .unset, []⟩

structure Mapping where
  name : String
  clockRate : UInt32
  callerPT : UInt8
  calleePT : UInt8
  callerDTMFPT : UInt8
  calleeDTMFPT : UInt8
  hasDTMF : Bool
  deriving DecidableEq, Repr

def Mapping.zero : Mapping := ⟨"", 0, 0, 0, 0, 0, false⟩

/-- The errors of the package, with the text they quote. -/
inductive SdpError
  | parse
  | noAudio
  | unsupportedProfile (text : String)
  | invalidAddress (text : String)
  | invalidRTCPPort (text : String)
  | invalidRTPMap (text : String)
  | invalidPayloadType (text : String)
  | invalidEncoding (text : String)
  | invalidClockRate (text : String)
  | noCommonCodec
  | invalidLocalAddresses
  | marshal
  deriving DecidableEq, Repr

def clockRateG711 : UInt32 := 8000
def defaultPTime : ℕ := 20

def isSupported (codec : Codec) : Bool :=
  codec.clockRate = clockRateG711 &&
    (codec.name = "PCMU" || codec.name = "PCMA" || codec.name = "TELEPHONE-EVENT")

def hasAudioCodec (codecs : List Codec) : Bool :=
  codecs.any fun codec => codec.name = "PCMU" || codec.name = "PCMA"

def findCodec (codecs : List Codec) (name : String) : Option Codec :=
  codecs.find? (·.name = name)

/-! ## Parsing -/

def audioDescription (description : SessionDescription) : Option MediaDescription :=
  description.mediaDescriptions.find? (·.media = "audio")

/-- One `rtpmap` attribute. -/
def parseRTPMap (value : String) : Except SdpError Codec :=
  match Text.fields value with
  | [payloadText, encodingText] =>
    match Text.parseUint 7 payloadText with
    | none => .error (.invalidPayloadType payloadText)
    | some payload =>
      match Text.split '/' encodingText with
      | name :: clockText :: _ =>
        match Text.parseUint 32 clockText with
        | none => .error (.invalidClockRate clockText)
        | some clockRate => .ok ⟨Text.toUpper name, UInt8.ofNat payload, UInt32.ofNat clockRate⟩
      | _ => .error (.invalidEncoding encodingText)
  | _ => .error (.invalidRTPMap value)

/-- The first loop of `parseCodecs`: later lines for one payload type replace earlier ones. -/
def rtpMaps : List Attribute → Table UInt8 Codec → Except SdpError (Table UInt8 Codec)
  | [], maps => .ok maps
  | a :: as, maps =>
    if a.key ≠ "rtpmap" then rtpMaps as maps
    else
      match parseRTPMap a.value with
      | .error err => .error err
      | .ok codec => rtpMaps as (maps.insert codec.payloadType codec)

/-- The codec of a payload type: that of its last `rtpmap`, else the static one. -/
def codecOf (maps : Table UInt8 Codec) (payloadType : UInt8) : Option Codec :=
  match maps.lookup payloadType with
  | some codec => some codec
  | none =>
    if payloadType = 0 then some ⟨"PCMU", 0, clockRateG711⟩
    else if payloadType = 8 then some ⟨"PCMA", 8, clockRateG711⟩
    else none

/-- The codec of one format, if it is one of those supported. -/
def formatCodec (maps : Table UInt8 Codec) (format : String) : Option Codec :=
  (Text.parseUint 7 format).bind fun payload => (codecOf maps (UInt8.ofNat payload)).filter isSupported

def parseCodecs (media : MediaDescription) : Except SdpError (List Codec) :=
  match rtpMaps media.attributes ∅ with
  | .error err => .error err
  | .ok maps =>
    let codecs := media.formats.filterMap (formatCodec maps)
    if hasAudioCodec codecs then .ok codecs else .error .noAudio

/-- The directions in the order they are looked for. -/
def directions : List Direction := [.inactive, .sendOnly, .recvOnly, .sendRecv]

def mediaDirection (description : SessionDescription) (media : MediaDescription) : Direction :=
  (directions.find? fun d => (attributeValue media.attributes d.text).isSome ||
    (attributeValue description.attributes d.text).isSome).getD .sendRecv

/-- The port of the RTCP attribute, by default the one after the RTP port. -/
def rtcpPort (media : MediaDescription) (rtpPort : UInt16) : Except SdpError UInt16 :=
  match attributeValue media.attributes "rtcp" with
  | none => .ok (rtpPort + 1)
  | some value =>
    match Text.fields value with
    | [] => .error (.invalidRTCPPort value)
    | field :: _ =>
      match Text.parseUint 16 field with
      | none => .error (.invalidRTCPPort value)
      | some parsed =>
        if parsed = 0 then .error (.invalidRTCPPort value) else .ok (UInt16.ofNat parsed)

/-- The connection address of the media description, else that of the session. -/
def addressText (description : SessionDescription) (media : MediaDescription) : String :=
  match media.connection, description.connection with
  | some c, _ => c.address
  | none, some c => c.address
  | none, none => ""

def parseAudio (C : Codecs) (body : Body) : Except SdpError Endpoint := do
  let some description := C.unmarshal body
    | .error .parse
  let some media := audioDescription description
    | .error .noAudio
  if media.port ≤ 0 ∨ 65535 < media.port then .error .noAudio
  else if "/".intercalate media.protos ≠ "RTP/AVP" then
    .error (.unsupportedProfile ("/".intercalate media.protos))
  else
    let text := addressText description media
    let some address := C.parseAddr text
      | .error (.invalidAddress text)
    if address.isUnspecified then .error (.invalidAddress text)
    else
      let rtpPort := UInt16.ofInt media.port
      let rtcpPort ← rtcpPort media rtpPort
      let codecs ← parseCodecs media
      return ⟨⟨address, rtpPort⟩, ⟨address, rtcpPort⟩, mediaDirection description media, codecs⟩

/-! ## Negotiation -/

/-- The mapping for one answered and one offered codec. -/
def mappingOf (offer answer : Endpoint) (offered answered : Codec) : Mapping :=
  let mapping : Mapping := { Mapping.zero with
    name := answered.name, clockRate := answered.clockRate
    callerPT := offered.payloadType, calleePT := answered.payloadType }
  match findCodec offer.codecs "TELEPHONE-EVENT", findCodec answer.codecs "TELEPHONE-EVENT" with
  | some callerDTMF, some calleeDTMF =>
    { mapping with
      hasDTMF := true, callerDTMFPT := callerDTMF.payloadType
      calleeDTMFPT := calleeDTMF.payloadType }
  | _, _ => mapping

/-- `Negotiate`: the answer's first G.711 codec that the offer has. -/
def negotiate (offer answer : Endpoint) : Except SdpError Mapping :=
  let found := answer.codecs.findSome? fun answered =>
    if answered.name ≠ "PCMU" ∧ answered.name ≠ "PCMA" then none
    else
      (offer.codecs.find? fun offered =>
        offered.name = answered.name && offered.clockRate = answered.clockRate).map
        (mappingOf offer answer · answered)
  match found with
  | some mapping => .ok mapping
  | none => .error .noCommonCodec

theorem supported_of_parseCodecs {media : MediaDescription} {codecs : List Codec}
    (h : parseCodecs media = .ok codecs) : ∀ codec ∈ codecs, isSupported codec = true := by
  unfold parseCodecs at h
  split at h
  · cases h
  · next maps _ =>
    dsimp only at h
    split_ifs at h
    cases h
    intro codec hcodec
    obtain ⟨format, -, hformat⟩ := List.mem_filterMap.mp hcodec
    obtain ⟨payload, -, hfilter⟩ := Option.bind_eq_some_iff.mp hformat
    exact (Option.filter_eq_some_iff.mp hfilter).2

/-- What `ParseAudio` has read when it returns an endpoint. -/
structure Parses (C : Codecs) (description : SessionDescription) (media : MediaDescription)
    (endpoint : Endpoint) : Prop where
  audio : audioDescription description = some media
  port : 0 < media.port ∧ media.port ≤ 65535
  profile : "/".intercalate media.protos = "RTP/AVP"
  address : C.parseAddr (addressText description media) = some endpoint.rtp.addr
  specified : endpoint.rtp.addr.isUnspecified = false
  rtpPort : endpoint.rtp.port = UInt16.ofInt media.port
  sameAddress : endpoint.rtcp.addr = endpoint.rtp.addr
  rtcpPort : rtcpPort media endpoint.rtp.port = .ok endpoint.rtcp.port
  direction : endpoint.direction = mediaDirection description media
  codecs : parseCodecs media = .ok endpoint.codecs

variable {endpoint : Endpoint} {body : Body} {C : Codecs}

theorem Parses.parseAudio {description : SessionDescription} {media : MediaDescription}
    (h : Parses C description media endpoint) (hbody : C.unmarshal body = some description) :
    parseAudio C body = .ok endpoint := by
  obtain ⟨⟨address, rtpPort⟩, ⟨address', rtcpPort⟩, direction, codecs⟩ := endpoint
  obtain rfl : address' = address := h.sameAddress
  obtain rfl : rtpPort = UInt16.ofInt media.port := h.rtpPort
  obtain rfl : direction = mediaDirection description media := h.direction
  have hport : ¬(media.port ≤ 0 ∨ 65535 < media.port) := by
    have := h.port
    omega
  unfold Sdp.parseAudio
  simp only [hbody, h.audio, if_neg hport, if_neg (not_not.mpr h.profile), h.address, h.specified,
    h.rtcpPort, h.codecs]
  rfl

theorem parses_of_parseAudio (h : parseAudio C body = .ok endpoint) : ∃ description media,
      C.unmarshal body = some description ∧ Parses C description media endpoint := by
  unfold parseAudio at h
  split at h
  · next description hbody =>
    split at h
    · next media haudio =>
      split_ifs at h with hport hprofile
      dsimp only at h
      split at h
      · next address haddress =>
        split_ifs at h with hunspecified
        cases hrtcp : rtcpPort media (UInt16.ofInt media.port) with
        | error err =>
          rw [hrtcp] at h
          cases h
        | ok port =>
          cases hcodecs : parseCodecs media with
          | error err =>
            rw [hrtcp, hcodecs] at h
            cases h
          | ok codecs =>
            rw [hrtcp, hcodecs] at h
            cases h
            refine ⟨description, media, hbody, haudio, ?_, not_not.mp hprofile, haddress,
              Bool.eq_false_iff.mpr hunspecified, rfl, rfl, hrtcp, rfl, hcodecs⟩
            omega
      · cases h
    · cases h
  · cases h

theorem codecs_of_parseAudio (h : parseAudio C body = .ok endpoint) :
    ∃ media, parseCodecs media = .ok endpoint.codecs := by
  obtain ⟨description, media, -, hparses⟩ := parses_of_parseAudio h
  exact ⟨media, hparses.codecs⟩

theorem supported_of_parseAudio (h : parseAudio C body = .ok endpoint) :
    ∀ codec ∈ endpoint.codecs, isSupported codec = true := by
  obtain ⟨media, hcodecs⟩ := codecs_of_parseAudio h
  exact supported_of_parseCodecs hcodecs

/-- A negotiated mapping names a codec and has its clock rate. -/
theorem negotiate_valid {offer answer : Endpoint} {mapping : Mapping}
    (hparse : parseAudio C body = .ok answer) (h : negotiate offer answer = .ok mapping) :
    mapping.name ≠ "" ∧ mapping.clockRate = clockRateG711 := by
  unfold negotiate at h
  dsimp only at h
  split at h
  · next found hfound =>
    cases h
    obtain ⟨answered, hmem, hsome⟩ := List.exists_of_findSome?_eq_some hfound
    have hsupported := supported_of_parseAudio hparse answered hmem
    split_ifs at hsome with hname
    obtain ⟨offered, -, rfl⟩ := Option.map_eq_some_iff.mp hsome
    have hmapping : (mappingOf offer answer offered answered).name = answered.name ∧
        (mappingOf offer answer offered answered).clockRate = answered.clockRate := by
      unfold mappingOf
      dsimp only
      split <;> exact ⟨rfl, rfl⟩
    rw [hmapping.1, hmapping.2]
    constructor
    · intro hempty
      rw [hempty] at hname
      exact hname ⟨by decide, by decide⟩
    · simp only [isSupported, Bool.and_eq_true, decide_eq_true_eq] at hsupported
      exact hsupported.1
  · cases h

/-! ## Building -/

/-- The attributes of one codec. -/
def codecAttributes (codec : Codec) : List Attribute :=
  let payload := Text.itoa codec.payloadType.toNat
  let rtpmap := ⟨"rtpmap", payload ++ " " ++ codec.name ++ "/" ++ Text.itoa codec.clockRate.toNat⟩
  if codec.name = "TELEPHONE-EVENT" then [rtpmap, ⟨"fmtp", payload ++ " 0-16"⟩] else [rtpmap]

/-- The description `BuildAudio` encodes; `sessionID` is its clock reading. -/
def describe (C : Codecs) (sessionID : ℤ) (localRTP localRTCP : AddrPort) (codecs : List Codec)
    (direction : Direction) : SessionDescription :=
  let direction := if direction = .unset then .sendRecv else direction
  let supported := codecs.filter isSupported
  let addressType := if localRTP.addr.is6 then "IP6" else "IP4"
  let address := C.addrString localRTP.addr
  { origin := ⟨"aixvolinkpbx", sessionID, sessionID, "IN", addressType, address⟩
    sessionName := "AixvoLinkPBX"
    connection := some ⟨"IN", addressType, address⟩
    attributes := []
    mediaDescriptions := [
      { media := "audio"
        port := localRTP.port.toNat
        protos := ["RTP", "AVP"]
        formats := supported.map fun codec => Text.itoa codec.payloadType.toNat
        connection := none
        attributes := supported.flatMap codecAttributes ++
          [⟨"rtcp", Text.itoa localRTCP.port.toNat⟩, ⟨direction.text, ""⟩,
            ⟨"ptime", Text.itoa defaultPTime⟩] }] }

/-- `BuildAudio` at the clock reading `sessionID`. -/
def buildAudio (C : Codecs) (sessionID : ℤ) (localRTP localRTCP : AddrPort) (codecs : List Codec)
    (direction : Direction) : Except SdpError Body :=
  if !localRTP.isValid || !localRTCP.isValid || localRTP.addr ≠ localRTCP.addr then
    .error .invalidLocalAddresses
  else if !hasAudioCodec codecs then .error .noAudio
  else
    match C.marshal (describe C sessionID localRTP localRTCP codecs direction) with
    | none => .error .marshal
    | some body => .ok body

def codecListForAnswer (mapping : Mapping) : List Codec :=
  ⟨mapping.name, mapping.callerPT, mapping.clockRate⟩ ::
    if mapping.hasDTMF then [⟨"TELEPHONE-EVENT", mapping.callerDTMFPT, clockRateG711⟩] else []

def codecListForOffer (endpoint : Endpoint) : List Codec := endpoint.codecs

/-! ## An encoding -/

def attributeLine (a : Attribute) : List String :=
  if a.value = "" then ["a=", a.key, "\r\n"] else ["a=", a.key, ":", a.value, "\r\n"]

def connectionLine (c : Connection) : List String :=
  ["c=", c.networkType, " ", c.addressType, " ", c.address, "\r\n"]

def mediaLines (m : MediaDescription) : List String :=
  ["m=", m.media, " ", toString m.port, " ", "/".intercalate m.protos] ++
    m.formats.flatMap (fun f => [" ", f]) ++ ["\r\n"] ++
    (m.connection.map connectionLine).getD [] ++ m.attributes.flatMap attributeLine

def lines (d : SessionDescription) : List String :=
  ["v=0\r\n", "o=", d.origin.username, " ", toString d.origin.sessionID, " ",
    toString d.origin.sessionVersion, " ", d.origin.networkType, " ", d.origin.addressType, " ",
    d.origin.unicastAddress, "\r\n", "s=", d.sessionName, "\r\n"] ++
    (d.connection.map connectionLine).getD [] ++ ["t=0 0\r\n"] ++
    d.attributes.flatMap attributeLine ++ d.mediaDescriptions.flatMap mediaLines

def ascii (texts : List String) : Body :=
  (texts.flatMap String.toList).map fun c => UInt8.ofNat c.toNat

def dotted (bits : BitVec 32) : String :=
  ".".intercalate ([24, 16, 8, 0].map fun k => Text.itoa (bits.toNat / 2 ^ k % 256))

/-- The encodings on given descriptions and IPv4 addresses. -/
def encodingOf (descriptions : List SessionDescription) (addresses : List (BitVec 32)) : Codecs where
  unmarshal body := descriptions.find? fun d => ascii (lines d) = body
  marshal d := some (ascii (lines d))
  parseAddr text := (addresses.find? fun a => dotted a = text).map Addr.v4
  addrString
    | .v4 bits => dotted bits
    | _ => ""

end AixvolinkPbx.Sdp

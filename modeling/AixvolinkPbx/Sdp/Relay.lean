import AixvolinkPbx.Sdp.Audio

/-!
# What is relayed between the legs (`internal/sip/sdp/audio.go`)

The codec lists that leave the package come from `ParseAudio`, or from the mapping negotiated between
two such lists. They are `Relayable`: every codec is supported, and a payload type stands for one codec
only, since `parseCodecs` reads all codecs of a payload type from one map. From this follow

1. what `Negotiate` decides, and that its mapping lies within the offer and keeps audio and telephone
   events apart;
2. that `ParseAudio` reads back what `BuildAudio` writes.
-/

namespace AixvolinkPbx.Sdp

/-! ## Parsed codec lists -/

structure Relayable (codecs : List Codec) : Prop where
  supported : ∀ c ∈ codecs, isSupported c = true
  unambiguous : ∀ c ∈ codecs, ∀ d ∈ codecs, c.payloadType = d.payloadType → c = d
  sevenBits : ∀ c ∈ codecs, c.payloadType.toNat < 128
  audio : hasAudioCodec codecs = true

/-- Every codec of the map has the payload type it is stored under. -/
def Keyed (maps : Table UInt8 Codec) : Prop :=
  ∀ payloadType codec, maps.lookup payloadType = some codec → codec.payloadType = payloadType

variable {maps : Table UInt8 Codec}

theorem Keyed.insert (h : Keyed maps) (codec : Codec) :
    Keyed (maps.insert codec.payloadType codec) := by
  intro payloadType found hfound
  by_cases hkey : payloadType = codec.payloadType
  · subst hkey
    rw [AList.lookup_insert] at hfound
    rw [Option.some.inj hfound]
  · rw [AList.lookup_insert_ne hkey] at hfound
    exact h payloadType found hfound

theorem keyed_of_rtpMaps {attributes : List Attribute} :
    ∀ {maps maps' : Table UInt8 Codec}, Keyed maps → rtpMaps attributes maps = .ok maps' →
      Keyed maps' := by
  induction attributes with
  | nil =>
    intro maps maps' h hok
    rwa [← Except.ok.inj hok]
  | cons a rest ih =>
    intro maps maps' h hok
    unfold rtpMaps at hok
    split_ifs at hok
    · exact ih h hok
    · split at hok
      · cases hok
      · next codec _ => exact ih (h.insert codec) hok

variable {codec : Codec}

theorem Keyed.codecOf (h : Keyed maps) {payloadType : UInt8}
    (hcodec : codecOf maps payloadType = some codec) : codec.payloadType = payloadType := by
  unfold Sdp.codecOf at hcodec
  split at hcodec
  · next found hfound =>
    rw [← Option.some.inj hcodec]
    exact h payloadType found hfound
  · split_ifs at hcodec with hzero height
    · rw [← Option.some.inj hcodec, hzero]
    · rw [← Option.some.inj hcodec, height]

/-- The codec of a format is the one its payload type stands for. -/
theorem Keyed.formatCodec (h : Keyed maps) {format : String}
    (hcodec : formatCodec maps format = some codec) :
    Sdp.codecOf maps codec.payloadType = some codec ∧ codec.payloadType.toNat < 128 := by
  obtain ⟨payload, hpayload, hfilter⟩ := Option.bind_eq_some_iff.mp hcodec
  have hfound := (Option.filter_eq_some_iff.mp hfilter).1
  have htype := h.codecOf hfound
  have hlt := Text.lt_of_parseUint hpayload
  rw [htype]
  refine ⟨hfound, ?_⟩
  rw [UInt8.toNat_ofNat']
  omega

variable {codecs : List Codec}

theorem relayable_of_parseCodecs {media : MediaDescription} (h : parseCodecs media = .ok codecs) :
    Relayable codecs := by
  have hsupported := supported_of_parseCodecs h
  unfold parseCodecs at h
  split at h
  · cases h
  · next maps hmaps =>
    have hkeyed : Keyed maps := keyed_of_rtpMaps (fun _ _ hnone => by simp at hnone) hmaps
    dsimp only at h
    split_ifs at h with haudio
    cases h
    have hcodec : ∀ c ∈ media.formats.filterMap (formatCodec maps),
        codecOf maps c.payloadType = some c ∧ c.payloadType.toNat < 128 := by
      intro c hc
      obtain ⟨format, -, hformat⟩ := List.mem_filterMap.mp hc
      exact hkeyed.formatCodec hformat
    refine ⟨hsupported, ?_, fun c hc => (hcodec c hc).2, haudio⟩
    intro c hc d hd hpt
    have hc' := (hcodec c hc).1
    rw [hpt, (hcodec d hd).1] at hc'
    exact (Option.some.inj hc').symm

theorem relayable_of_parseAudio {C : Codecs} {body : Body} {endpoint : Endpoint}
    (h : parseAudio C body = .ok endpoint) : Relayable endpoint.codecs := by
  obtain ⟨media, hcodecs⟩ := codecs_of_parseAudio h
  exact relayable_of_parseCodecs hcodecs

/-! ## Negotiation -/

def isG711 (codec : Codec) : Prop := codec.name = "PCMU" ∨ codec.name = "PCMA"

theorem clockRate_of_supported (h : isSupported codec = true) :
    codec.clockRate = clockRateG711 := by
  simp only [isSupported, Bool.and_eq_true, decide_eq_true_eq] at h
  exact h.1

/-- The choice `Negotiate` makes: the first G.711 codec of the answer that the offer has. -/
structure Chosen (offer answer : Endpoint) (answered offered : Codec) : Prop where
  first : ∃ before after, answer.codecs = before ++ answered :: after ∧
    ∀ a ∈ before, isG711 a → ∀ o ∈ offer.codecs, o.name = a.name → o.clockRate ≠ a.clockRate
  g711 : isG711 answered
  mem : offered ∈ offer.codecs
  name : offered.name = answered.name
  clockRate : offered.clockRate = answered.clockRate

theorem Chosen.answered_mem {offer answer : Endpoint} {answered offered : Codec}
    (h : Chosen offer answer answered offered) : answered ∈ answer.codecs := by
  obtain ⟨before, after, hsplit, -⟩ := h.first
  rw [hsplit]
  simp

theorem chosen_of_negotiate {offer answer : Endpoint} {mapping : Mapping}
    (h : negotiate offer answer = .ok mapping) :
    ∃ answered offered, Chosen offer answer answered offered ∧
      mapping = mappingOf offer answer offered answered := by
  unfold negotiate at h
  dsimp only at h
  split at h
  · next found hfound =>
    cases h
    obtain ⟨before, answered, after, hsplit, hsome, hnone⟩ := List.findSome?_eq_some_iff.mp hfound
    split_ifs at hsome with hname
    obtain ⟨offered, hoffered, rfl⟩ := Option.map_eq_some_iff.mp hsome
    have hmatch := List.find?_some hoffered
    simp only [Bool.and_eq_true, decide_eq_true_eq] at hmatch
    refine ⟨answered, offered, ⟨⟨before, after, hsplit, ?_⟩, ?_,
      List.mem_of_find?_eq_some hoffered, hmatch.1, hmatch.2⟩, rfl⟩
    · intro a ha hg711 o ho honame hoclock
      have hskip := hnone a ha
      rw [if_neg (by unfold isG711 at hg711; tauto), Option.map_eq_none_iff] at hskip
      have hother := List.find?_eq_none.mp hskip o ho
      simp [honame, hoclock] at hother
    · unfold isG711
      tauto
  · cases h

section Mapping

variable (offer answer : Endpoint) (offered answered : Codec)

theorem mappingOf_audio :
    (mappingOf offer answer offered answered).name = answered.name ∧
      (mappingOf offer answer offered answered).clockRate = answered.clockRate ∧
      (mappingOf offer answer offered answered).callerPT = offered.payloadType ∧
      (mappingOf offer answer offered answered).calleePT = answered.payloadType := by
  unfold mappingOf
  dsimp only
  split <;> exact ⟨rfl, rfl, rfl, rfl⟩

def hasDTMF (codecs : List Codec) : Prop := ∃ c ∈ codecs, c.name = "TELEPHONE-EVENT"

theorem findCodec_some {name : String} (h : findCodec codecs name = some codec) :
    codec ∈ codecs ∧ codec.name = name := by
  have hname := List.find?_some h
  exact ⟨List.mem_of_find?_eq_some h, by simpa using hname⟩

theorem findCodec_none (h : findCodec codecs "TELEPHONE-EVENT" = none) :
    ¬hasDTMF codecs := by
  rintro ⟨c, hc, hname⟩
  have hother := List.find?_eq_none.mp h c hc
  simp [hname] at hother

theorem mappingOf_hasDTMF :
    (mappingOf offer answer offered answered).hasDTMF = true ↔
      hasDTMF offer.codecs ∧ hasDTMF answer.codecs := by
  unfold mappingOf
  dsimp only
  split
  · next callerDTMF calleeDTMF hcaller hcallee =>
    obtain ⟨hmem, hname⟩ := findCodec_some hcaller
    obtain ⟨hmem', hname'⟩ := findCodec_some hcallee
    exact ⟨fun _ => ⟨⟨_, hmem, hname⟩, ⟨_, hmem', hname'⟩⟩, fun _ => rfl⟩
  · next hnone =>
    refine ⟨fun h => by simp [Mapping.zero] at h, fun h => ?_⟩
    cases hcaller : findCodec offer.codecs "TELEPHONE-EVENT" with
    | none => exact absurd h.1 (findCodec_none hcaller)
    | some callerDTMF =>
      cases hcallee : findCodec answer.codecs "TELEPHONE-EVENT" with
      | none => exact absurd h.2 (findCodec_none hcallee)
      | some calleeDTMF => exact absurd hcallee (hnone _ _ hcaller)

/-- The payload types of the telephone events are those of codecs of the two lists. -/
theorem mappingOf_dtmf (h : (mappingOf offer answer offered answered).hasDTMF = true) :
    (∃ c ∈ offer.codecs, c.name = "TELEPHONE-EVENT" ∧
      (mappingOf offer answer offered answered).callerDTMFPT = c.payloadType) ∧
    ∃ c ∈ answer.codecs, c.name = "TELEPHONE-EVENT" ∧
      (mappingOf offer answer offered answered).calleeDTMFPT = c.payloadType := by
  unfold mappingOf at h ⊢
  dsimp only at h ⊢
  split at h
  · next callerDTMF calleeDTMF hcaller hcallee =>
    obtain ⟨hmem, hname⟩ := findCodec_some hcaller
    obtain ⟨hmem', hname'⟩ := findCodec_some hcallee
    exact ⟨⟨callerDTMF, hmem, hname, rfl⟩, ⟨calleeDTMF, hmem', hname', rfl⟩⟩
  · simp [Mapping.zero] at h

end Mapping

/-- A negotiated mapping between relayable lists. -/
structure Agreed (offer answer : Endpoint) (mapping : Mapping) : Prop where
  /-- The audio codec is one of the answer, with its payload type, -/
  calleeAudio : ⟨mapping.name, mapping.calleePT, mapping.clockRate⟩ ∈ answer.codecs
  /-- and one of the offer; -/
  callerAudio : ⟨mapping.name, mapping.callerPT, mapping.clockRate⟩ ∈ offer.codecs
  g711 : mapping.name = "PCMU" ∨ mapping.name = "PCMA"
  clockRate : mapping.clockRate = clockRateG711
  dtmf : mapping.hasDTMF = true ↔ hasDTMF offer.codecs ∧ hasDTMF answer.codecs
  callerDTMF : mapping.hasDTMF = true →
    ⟨"TELEPHONE-EVENT", mapping.callerDTMFPT, clockRateG711⟩ ∈ offer.codecs
  calleeDTMF : mapping.hasDTMF = true →
    ⟨"TELEPHONE-EVENT", mapping.calleeDTMFPT, clockRateG711⟩ ∈ answer.codecs

theorem agreed_of_negotiate {offer answer : Endpoint} {mapping : Mapping}
    (hoffer : Relayable offer.codecs) (hanswer : Relayable answer.codecs)
    (h : negotiate offer answer = .ok mapping) : Agreed offer answer mapping := by
  obtain ⟨answered, offered, hchosen, rfl⟩ := chosen_of_negotiate h
  obtain ⟨hname, hclock, hcaller, hcallee⟩ := mappingOf_audio offer answer offered answered
  have hrate := clockRate_of_supported (hanswer.supported answered hchosen.answered_mem)
  constructor
  · rw [hname, hclock, hcallee]
    exact hchosen.answered_mem
  · rw [hname, hclock, hcaller, ← hchosen.name, ← hchosen.clockRate]
    exact hchosen.mem
  · rw [hname]
    exact hchosen.g711
  · rw [hclock, hrate]
  · exact mappingOf_hasDTMF offer answer offered answered
  · intro hdtmf
    obtain ⟨c, hc, hcname, hcpt⟩ := (mappingOf_dtmf offer answer offered answered hdtmf).1
    rw [hcpt, ← hcname, ← clockRate_of_supported (hoffer.supported c hc)]
    exact hc
  · intro hdtmf
    obtain ⟨c, hc, hcname, hcpt⟩ := (mappingOf_dtmf offer answer offered answered hdtmf).2
    rw [hcpt, ← hcname, ← clockRate_of_supported (hanswer.supported c hc)]
    exact hc

section Agreed

variable {offer answer : Endpoint} {mapping : Mapping}

theorem Agreed.name_ne (h : Agreed offer answer mapping) : mapping.name ≠ "TELEPHONE-EVENT" := by
  intro hname
  rcases h.g711 with hg711 | hg711 <;> simp [hname] at hg711

/-- Audio and telephone events have different payload types on either leg. -/
theorem Agreed.distinct (h : Agreed offer answer mapping) (hoffer : Relayable offer.codecs)
    (hanswer : Relayable answer.codecs) (hdtmf : mapping.hasDTMF = true) :
    mapping.callerPT ≠ mapping.callerDTMFPT ∧ mapping.calleePT ≠ mapping.calleeDTMFPT := by
  constructor
  · intro heq
    have hsame := hoffer.unambiguous _ h.callerAudio _ (h.callerDTMF hdtmf) heq
    exact h.name_ne (congrArg Codec.name hsame)
  · intro heq
    have hsame := hanswer.unambiguous _ h.calleeAudio _ (h.calleeDTMF hdtmf) heq
    exact h.name_ne (congrArg Codec.name hsame)

/-- The answer to the caller stays within its offer. -/
theorem Agreed.codecListForAnswer_subset (h : Agreed offer answer mapping) :
    ∀ c ∈ codecListForAnswer mapping, c ∈ offer.codecs := by
  intro c hc
  rcases List.mem_cons.mp hc with rfl | hc
  · exact h.callerAudio
  · split_ifs at hc with hdtmf
    · rw [List.mem_singleton.mp hc]
      exact h.callerDTMF hdtmf
    · cases hc

theorem Agreed.relayable (h : Agreed offer answer mapping) (hoffer : Relayable offer.codecs) :
    Relayable (codecListForAnswer mapping) := by
  have hsub := h.codecListForAnswer_subset
  refine ⟨fun c hc => hoffer.supported c (hsub c hc),
    fun c hc d hd => hoffer.unambiguous c (hsub c hc) d (hsub d hd),
    fun c hc => hoffer.sevenBits c (hsub c hc), ?_⟩
  have hg711 := h.g711
  rw [hasAudioCodec, List.any_eq_true]
  exact ⟨_, List.mem_cons_self, by simpa using hg711⟩

end Agreed

/-! ## Writing and reading back -/

theorem name_cases (h : isSupported codec = true) :
    codec.name = "PCMU" ∨ codec.name = "PCMA" ∨ codec.name = "TELEPHONE-EVENT" := by
  simp only [isSupported, Bool.and_eq_true, decide_eq_true_eq, Bool.or_eq_true] at h
  tauto

/-- The names of supported codecs are in capitals and hold neither separator. -/
theorem name_plain (h : isSupported codec = true) :
    Text.Solid codec.name ∧ '/' ∉ codec.name.toList ∧ Text.toUpper codec.name = codec.name := by
  rcases name_cases h with hname | hname | hname <;> rw [hname] <;>
    simp [Text.Solid, Text.isSpace, Text.toUpper]

theorem slash_notMem_itoa (n : ℕ) : '/' ∉ (Text.itoa n).toList := by
  intro hmem
  have hdigit := Text.isDigit_of_mem_itoa hmem
  simp [Char.isDigit] at hdigit

def rtpmapText (codec : Codec) : String :=
  Text.itoa codec.payloadType.toNat ++ " " ++ codec.name ++ "/" ++ Text.itoa codec.clockRate.toNat

theorem parseRTPMap_rtpmapText (hsupported : isSupported codec = true)
    (hseven : codec.payloadType.toNat < 128) : parseRTPMap (rtpmapText codec) = .ok codec := by
  obtain ⟨hsolid, hslash, hupper⟩ := name_plain hsupported
  have hencoding : Text.Solid (codec.name ++ "/" ++ Text.itoa codec.clockRate.toNat) := by
    refine (hsolid.append ?_).append (Text.solid_itoa _).2
    simp [Text.isSpace]
  have hfields : Text.fields (rtpmapText codec) =
      [Text.itoa codec.payloadType.toNat, codec.name ++ "/" ++ Text.itoa codec.clockRate.toNat] := by
    have hassoc : rtpmapText codec = Text.itoa codec.payloadType.toNat ++ " " ++
        (codec.name ++ "/" ++ Text.itoa codec.clockRate.toNat) := by
      simp only [rtpmapText, String.append_assoc]
    rw [hassoc, Text.fields_pair (Text.solid_itoa _) hencoding]
  have hsplit : Text.split '/' (codec.name ++ "/" ++ Text.itoa codec.clockRate.toNat) =
      [codec.name, Text.itoa codec.clockRate.toNat] :=
    Text.split_pair hslash (slash_notMem_itoa _)
  have hpayload : codec.payloadType.toNat < 2 ^ 7 := hseven
  have hclock : codec.clockRate.toNat < 2 ^ 32 := codec.clockRate.toNat_lt
  unfold parseRTPMap
  rw [hfields]
  simp only [Text.parseUint_itoa hpayload, hsplit, Text.parseUint_itoa hclock, hupper,
    UInt8.ofNat_toNat, UInt32.ofNat_toNat]

theorem codecAttributes_eq (codec : Codec) :
    codecAttributes codec = ⟨"rtpmap", rtpmapText codec⟩ ::
      if codec.name = "TELEPHONE-EVENT" then
        [⟨"fmtp", Text.itoa codec.payloadType.toNat ++ " 0-16"⟩] else [] := by
  unfold codecAttributes rtpmapText
  dsimp only
  split_ifs <;> rfl

/-- The map the lines of a codec list build: later codecs of a payload type replace earlier ones. -/
def collect (codecs : List Codec) (maps : Table UInt8 Codec) : Table UInt8 Codec :=
  codecs.foldl (fun maps codec => maps.insert codec.payloadType codec) maps

theorem rtpMaps_other {a : Attribute} (h : a.key ≠ "rtpmap") (rest : List Attribute)
    (maps : Table UInt8 Codec) : rtpMaps (a :: rest) maps = rtpMaps rest maps := by
  rw [rtpMaps, if_pos h]

theorem rtpMaps_line (hsupported : isSupported codec = true)
    (hseven : codec.payloadType.toNat < 128) (rest : List Attribute) (maps : Table UInt8 Codec) :
    rtpMaps (⟨"rtpmap", rtpmapText codec⟩ :: rest) maps =
      rtpMaps rest (maps.insert codec.payloadType codec) := by
  rw [rtpMaps, if_neg (not_not.mpr rfl), parseRTPMap_rtpmapText hsupported hseven]

theorem rtpMaps_codecs (codecs : List Codec) (rest : List Attribute) :
    ∀ maps, (∀ c ∈ codecs, isSupported c = true) → (∀ c ∈ codecs, c.payloadType.toNat < 128) →
      rtpMaps (codecs.flatMap codecAttributes ++ rest) maps = rtpMaps rest (collect codecs maps) := by
  induction codecs with
  | nil =>
    intro maps _ _
    rfl
  | cons codec codecs ih =>
    intro maps hsupported hseven
    obtain ⟨hcodec, hcodecs⟩ := List.forall_mem_cons.mp hsupported
    obtain ⟨hlt, hlts⟩ := List.forall_mem_cons.mp hseven
    have hstep := ih (maps.insert codec.payloadType codec) hcodecs hlts
    rw [List.flatMap_cons, codecAttributes_eq, List.append_assoc, List.cons_append,
      rtpMaps_line hcodec hlt]
    show _ = rtpMaps rest (collect codecs (maps.insert codec.payloadType codec))
    rw [← hstep]
    split_ifs
    · exact rtpMaps_other (show "fmtp" ≠ "rtpmap" by decide) _ _
    · rfl

theorem lookup_collect :
    ∀ {maps : Table UInt8 Codec},
      (∀ c ∈ codecs, c.payloadType = codec.payloadType → c = codec) →
      codec ∈ codecs ∨ maps.lookup codec.payloadType = some codec →
      (collect codecs maps).lookup codec.payloadType = some codec := by
  induction codecs with
  | nil =>
    rintro maps - (hmem | hlookup)
    · cases hmem
    · exact hlookup
  | cons c codecs ih =>
    intro maps hsame hin
    obtain ⟨hc, hcodecs⟩ := List.forall_mem_cons.mp hsame
    refine @ih (maps.insert c.payloadType c) hcodecs ?_
    by_cases hkey : c.payloadType = codec.payloadType
    · right
      rw [hc hkey, AList.lookup_insert]
    · rcases hin with hmem | hlookup
      · rcases List.mem_cons.mp hmem with rfl | hmem
        · exact absurd rfl hkey
        · exact .inl hmem
      · right
        rw [AList.lookup_insert_ne (Ne.symm hkey)]
        exact hlookup

theorem attributeValue_codecs {key : String} (hrtpmap : key ≠ "rtpmap") (hfmtp : key ≠ "fmtp")
    (codecs : List Codec) (rest : List Attribute) :
    attributeValue (codecs.flatMap codecAttributes ++ rest) key = attributeValue rest key := by
  have hnone : (codecs.flatMap codecAttributes).find? (·.key = key) = none := by
    rw [List.find?_eq_none]
    intro a ha
    obtain ⟨codec, -, hattribute⟩ := List.mem_flatMap.mp ha
    rw [codecAttributes_eq] at hattribute
    rcases List.mem_cons.mp hattribute with rfl | hattribute
    · simpa using hrtpmap.symm
    · split_ifs at hattribute
      · rw [List.mem_singleton.mp hattribute]
        simpa using hfmtp.symm
      · cases hattribute
  rw [attributeValue, List.find?_append, hnone]
  rfl

section RoundTrip

variable {direction : Direction} {localRTP localRTCP : AddrPort}

def trailer (localRTCP : AddrPort) (direction : Direction) : List Attribute :=
  [⟨"rtcp", Text.itoa localRTCP.port.toNat⟩, ⟨direction.text, ""⟩,
    ⟨"ptime", Text.itoa defaultPTime⟩]

theorem rtpMaps_trailer (maps : Table UInt8 Codec) :
    rtpMaps (trailer localRTCP direction) maps = .ok maps := by
  cases direction <;> rfl

def built (localRTP localRTCP : AddrPort) (codecs : List Codec) (direction : Direction) :
    MediaDescription :=
  { media := "audio"
    port := localRTP.port.toNat
    protos := ["RTP", "AVP"]
    formats := codecs.map fun codec => Text.itoa codec.payloadType.toNat
    connection := none
    attributes := codecs.flatMap codecAttributes ++ trailer localRTCP direction }

theorem describe_media (C : Codecs) (sessionID : ℤ) (hcodecs : Relayable codecs)
    (hdirection : direction ≠ .unset) :
    (describe C sessionID localRTP localRTCP codecs direction).mediaDescriptions =
      [built localRTP localRTCP codecs direction] := by
  have hfilter : codecs.filter isSupported = codecs := List.filter_eq_self.mpr hcodecs.supported
  unfold describe built trailer
  simp only [hfilter, if_neg hdirection]

theorem parseCodecs_built (hcodecs : Relayable codecs) :
    parseCodecs (built localRTP localRTCP codecs direction) = .ok codecs := by
  have hmaps : rtpMaps (built localRTP localRTCP codecs direction).attributes ∅ =
      .ok (collect codecs ∅) := by
    show rtpMaps (codecs.flatMap codecAttributes ++ trailer localRTCP direction) ∅ = _
    rw [rtpMaps_codecs codecs _ ∅ hcodecs.supported hcodecs.sevenBits, rtpMaps_trailer]
  have hformat : ∀ codec ∈ codecs,
      formatCodec (collect codecs ∅) (Text.itoa codec.payloadType.toNat) = some codec := by
    intro codec hmem
    have hlookup : (collect codecs ∅).lookup codec.payloadType = some codec :=
      lookup_collect (fun c hc hpt => hcodecs.unambiguous c hc codec hmem hpt) (.inl hmem)
    have hpayload : codec.payloadType.toNat < 2 ^ 7 := hcodecs.sevenBits codec hmem
    have hcodec : codecOf (collect codecs ∅) codec.payloadType = some codec := by
      rw [codecOf, hlookup]
    rw [formatCodec, Text.parseUint_itoa hpayload, Option.bind_some, UInt8.ofNat_toNat, hcodec]
    exact Option.filter_eq_some_iff.mpr ⟨rfl, hcodecs.supported codec hmem⟩
  have hformats : (built localRTP localRTCP codecs direction).formats.filterMap
      (formatCodec (collect codecs ∅)) = codecs := by
    show (codecs.map _).filterMap _ = codecs
    rw [List.filterMap_map]
    exact (List.filterMap_congr hformat).trans List.filterMap_some
  unfold parseCodecs
  simp only [hmaps, hformats, hcodecs.audio, if_true]

theorem rtcpPort_built (hport : localRTCP.port ≠ 0) (rtpPort : UInt16) :
    rtcpPort (built localRTP localRTCP codecs direction) rtpPort = .ok localRTCP.port := by
  have hvalue : attributeValue (built localRTP localRTCP codecs direction).attributes "rtcp" =
      some (Text.itoa localRTCP.port.toNat) :=
    attributeValue_codecs (by decide) (by decide) codecs _
  have hne : localRTCP.port.toNat ≠ 0 := by
    intro hzero
    exact hport (UInt16.toNat_inj.mp hzero)
  have hlt : localRTCP.port.toNat < 2 ^ 16 := localRTCP.port.toNat_lt
  unfold rtcpPort
  rw [hvalue]
  simp only [Text.fields_solid (Text.solid_itoa _), Text.parseUint_itoa hlt, if_neg hne,
    UInt16.ofNat_toNat]

theorem mediaDirection_built (description : SessionDescription) (hattributes : description.attributes = [])
    (hdirection : direction ≠ .unset) :
    mediaDirection description (built localRTP localRTCP codecs direction) = direction := by
  have hvalue : ∀ d : Direction,
      attributeValue (built localRTP localRTCP codecs direction).attributes d.text =
        attributeValue (trailer localRTCP direction) d.text := by
    intro d
    refine attributeValue_codecs ?_ ?_ codecs _ <;> cases d <;> decide
  unfold mediaDirection
  simp only [hvalue, hattributes]
  cases direction with
  | unset => exact absurd rfl hdirection
  | sendRecv => rfl
  | sendOnly => rfl
  | recvOnly => rfl
  | inactive => rfl

/-- What is assumed of the other packages: `Unmarshal` returns the description `Marshal` wrote, and
`netip.ParseAddr` the address whose text was written. -/
structure ReadsBack (C : Codecs) (description : SessionDescription) (address : Addr) : Prop where
  body : ∃ body, C.marshal description = some body ∧ C.unmarshal body = some description
  address : C.parseAddr (C.addrString address) = some address

theorem parseAudio_describe {C : Codecs} {sessionID : ℤ} {body : Body} (hcodecs : Relayable codecs)
    (hdirection : direction ≠ .unset) (hsame : localRTP.addr = localRTCP.addr)
    (hspecified : localRTP.addr.isUnspecified = false) (hrtp : localRTP.port ≠ 0)
    (hrtcp : localRTCP.port ≠ 0)
    (haddress : C.parseAddr (C.addrString localRTP.addr) = some localRTP.addr)
    (hbody : C.unmarshal body = some (describe C sessionID localRTP localRTCP codecs direction)) :
    parseAudio C body = .ok ⟨localRTP, localRTCP, direction, codecs⟩ := by
  have haudio : audioDescription (describe C sessionID localRTP localRTCP codecs direction) =
      some (built localRTP localRTCP codecs direction) := by
    rw [audioDescription, describe_media C sessionID hcodecs hdirection]
    rfl
  have hport : 0 < (built localRTP localRTCP codecs direction).port ∧
      (built localRTP localRTCP codecs direction).port ≤ 65535 := by
    have hlt := localRTP.port.toNat_lt
    have hpos : localRTP.port.toNat ≠ 0 := fun hzero => hrtp (UInt16.toNat_inj.mp hzero)
    show 0 < (localRTP.port.toNat : ℤ) ∧ (localRTP.port.toNat : ℤ) ≤ 65535
    omega
  have hofInt : localRTP.port = UInt16.ofInt (built localRTP localRTCP codecs direction).port := by
    have hlt := localRTP.port.toNat_lt
    have hmod : ((localRTP.port.toNat : ℤ) % 2 ^ 16).toNat = localRTP.port.toNat := by omega
    show localRTP.port = UInt16.ofNat ((localRTP.port.toNat : ℤ) % 2 ^ 16).toNat
    rw [hmod, UInt16.ofNat_toNat]
  have hparses : Parses C (describe C sessionID localRTP localRTCP codecs direction)
      (built localRTP localRTCP codecs direction) ⟨localRTP, localRTCP, direction, codecs⟩ := by
    constructor
    · exact haudio
    · exact hport
    · rfl
    · exact haddress
    · exact hspecified
    · exact hofInt
    · exact hsame.symm
    · exact rtcpPort_built hrtcp _
    · exact (mediaDirection_built _ (by rfl) hdirection).symm
    · exact parseCodecs_built hcodecs
  exact hparses.parseAudio hbody

end RoundTrip

/-- The codec lists the PBX relays: those of a parsed body, and those of the answer to the caller. -/
inductive Relayed (C : Codecs) : List Codec → Prop
  | parsed {body : Body} {endpoint : Endpoint} (h : parseAudio C body = .ok endpoint) :
      Relayed C endpoint.codecs
  | answered {offerBody answerBody : Body} {offer answer : Endpoint} {mapping : Mapping}
      (hoffer : parseAudio C offerBody = .ok offer) (hanswer : parseAudio C answerBody = .ok answer)
      (h : negotiate offer answer = .ok mapping) : Relayed C (codecListForAnswer mapping)

theorem Relayed.relayable {C : Codecs} (h : Relayed C codecs) :
    Relayable codecs := by
  cases h with
  | parsed h => exact relayable_of_parseAudio h
  | answered hoffer hanswer h =>
    have hoffer := relayable_of_parseAudio hoffer
    exact (agreed_of_negotiate hoffer (relayable_of_parseAudio hanswer) h).relayable hoffer

/-- **Writing and reading back.** `BuildAudio` succeeds on every codec list that is relayed, and
`ParseAudio` returns the addresses, the direction and the codecs written. -/
theorem parseAudio_buildAudio {C : Codecs} {codecs : List Codec} (hcodecs : Relayed C codecs)
    {direction : Direction} (hdirection : direction ≠ .unset) {localRTP localRTCP : AddrPort}
    (hsame : localRTP.addr = localRTCP.addr) (hvalid : localRTP.addr.isValid = true)
    (hspecified : localRTP.addr.isUnspecified = false) (hrtp : localRTP.port ≠ 0)
    (hrtcp : localRTCP.port ≠ 0) {sessionID : ℤ}
    (hback : ReadsBack C (describe C sessionID localRTP localRTCP codecs direction) localRTP.addr) :
    ∃ body, buildAudio C sessionID localRTP localRTCP codecs direction = .ok body ∧
      parseAudio C body = .ok ⟨localRTP, localRTCP, direction, codecs⟩ := by
  have hrelayable := hcodecs.relayable
  obtain ⟨body, hwritten, hread⟩ := hback.body
  refine ⟨body, ?_, parseAudio_describe hrelayable hdirection hsame hspecified hrtp hrtcp
    hback.address hread⟩
  have hvalid' : localRTCP.addr.isValid = true := hsame ▸ hvalid
  unfold buildAudio
  rw [if_neg (by simp [AddrPort.isValid, hvalid', hsame]),
    if_neg (by simp [hrelayable.audio]), hwritten]

/-! ### A body of a handset -/

def handset : SessionDescription where
  origin := ⟨"-", 1, 1, "IN", "IP4", "10.0.0.9"⟩
  sessionName := "-"
  connection := some ⟨"IN", "IP4", "10.0.0.9"⟩
  attributes := []
  mediaDescriptions := [
    { media := "audio"
      port := 4000
      protos := ["RTP", "AVP"]
      formats := ["8", "101", "9", "8"]
      connection := none
      attributes := [⟨"rtpmap", "101 telephone-event/8000"⟩] }]

def handsetCodecs : List Codec :=
  [⟨"PCMA", 8, 8000⟩, ⟨"TELEPHONE-EVENT", 101, 8000⟩, ⟨"PCMA", 8, 8000⟩]

def handsetEndpoint : Endpoint :=
  ⟨⟨.v4 0x0A000009, 4000⟩, ⟨.v4 0x0A000009, 4001⟩, .sendRecv, handsetCodecs⟩

def pbxRTP : AddrPort := ⟨.v4 0x0A000001, 20000⟩
def pbxRTCP : AddrPort := ⟨.v4 0x0A000001, 20001⟩

def handsetEncoding : Codecs :=
  encodingOf [handset, describe (encodingOf [] []) 7 pbxRTP pbxRTCP handsetCodecs .recvOnly]
    [0x0A000009, 0x0A000001]

theorem parseAudio_buildAudio_handset :
    parseAudio handsetEncoding (ascii (lines handset)) = .ok handsetEndpoint ∧
      ∃ body, buildAudio handsetEncoding 7 pbxRTP pbxRTCP handsetCodecs .recvOnly = .ok body ∧
        parseAudio handsetEncoding body = .ok ⟨pbxRTP, pbxRTCP, .recvOnly, handsetCodecs⟩ := by
  have hparsed : parseAudio handsetEncoding (ascii (lines handset)) = .ok handsetEndpoint := by
    decide +kernel
  have hback : ReadsBack handsetEncoding
      (describe handsetEncoding 7 pbxRTP pbxRTCP handsetCodecs .recvOnly) pbxRTP.addr :=
    ⟨⟨ascii (lines (describe handsetEncoding 7 pbxRTP pbxRTCP handsetCodecs .recvOnly)), rfl,
      by decide +kernel⟩, by decide +kernel⟩
  have hrelayed : Relayed handsetEncoding handsetCodecs := .parsed hparsed
  have hsame : pbxRTP.addr = pbxRTCP.addr := rfl
  refine ⟨hparsed, parseAudio_buildAudio hrelayed (by decide) hsame (by decide) (by decide)
    (by decide) (by decide) hback⟩

end AixvolinkPbx.Sdp

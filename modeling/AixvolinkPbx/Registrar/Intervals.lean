import AixvolinkPbx.Registrar.Transactions

/-!
# Registration intervals (`internal/sip/registrar/handler.go`)

`contactExpires` works in whole seconds (`askedSeconds`) and compares with the durations of the
configuration (`limited`). The default and the advertised minimum are these durations cut down to whole
seconds.

1. Intervals that were asked for are kept within the bounds for every configuration.
2. The default is that of the configuration exactly if it has whole seconds (`limited_default_iff`); a
   default below one second unregisters.
3. `handle` answers 423 only for a contact that asks for too brief an interval (`brief_of_answers`). The
   minimum it advertises is too brief itself if it was cut down, unless it was cut down to zero or does
   not fit in the 32 bits that are read back (`retrySucceeds_iff`).
-/

namespace AixvolinkPbx.Registrar

open Auth (Credential)
open Prog

variable {cfg : Config} {T : Texts} {request : Register} {contact : Contact}

/-! ## The seconds a contact asks for -/

/-- The interval a contact asks for: its own parameter comes before the Expires header. -/
def asks (request : Register) (contact : Contact) : Option String := contact.expires.or request.expires

/-- The seconds `contactExpires` works with. -/
def askedSeconds (cfg : Config) (request : Register) (contact : Contact) : Except ExpiresError ℤ :=
  match expiresSeconds (cfg.defaultExpires.tdiv Time.second) request.expires with
  | .error err => .error err
  | .ok seconds => expiresSeconds seconds contact.expires

/-- What becomes of them. -/
def limited (cfg : Config) (seconds : ℤ) : Except ExpiresError ℤ :=
  if seconds = 0 then .ok 0
  else if seconds * Time.second < cfg.minExpires then .error .tooBrief
  else if cfg.maxExpires < seconds * Time.second then .ok cfg.maxExpires
  else .ok (seconds * Time.second)

theorem contactExpires_eq : contactExpires cfg request contact =
    match askedSeconds cfg request contact with
    | .error err => .error err
    | .ok seconds => limited cfg seconds := by
  unfold contactExpires askedSeconds
  cases expiresSeconds (cfg.defaultExpires.tdiv Time.second) request.expires with
  | error err => rfl
  | ok seconds => rfl

variable {seconds : ℤ}

theorem expiresSeconds_ok {default : ℤ} {given : Option String}
    (h : expiresSeconds default given = .ok seconds) :
    given = none ∧ seconds = default ∨
      ∃ text, given = some text ∧ Text.parseInt 32 text = some seconds := by
  unfold expiresSeconds at h
  split at h
  · exact .inl ⟨rfl, (Except.ok.inj h).symm⟩
  · next text =>
    split at h
    · cases h
    · next parsed hparsed =>
      split_ifs at h
      exact .inr ⟨text, rfl, hparsed.trans (congrArg some (Except.ok.inj h))⟩

theorem expiresSeconds_ne_tooBrief (default : ℤ) (given : Option String) :
    expiresSeconds default given ≠ .error .tooBrief := by
  unfold expiresSeconds
  split
  · nofun
  · split
    · nofun
    · split_ifs
      · nofun
      · nofun

theorem askedSeconds_ok (h : askedSeconds cfg request contact = .ok seconds) :
    (∃ text, asks request contact = some text ∧ Text.parseInt 32 text = some seconds) ∨
      asks request contact = none ∧ seconds = cfg.defaultExpires.tdiv Time.second := by
  unfold askedSeconds at h
  split at h
  · cases h
  · next header hheader =>
    rcases expiresSeconds_ok h with ⟨hcontact, rfl⟩ | ⟨text, hcontact, hparse⟩
    · rcases expiresSeconds_ok hheader with ⟨hnone, rfl⟩ | ⟨text, hsome, hparse⟩
      · exact .inr ⟨by rw [asks, hcontact, hnone]; rfl, rfl⟩
      · exact .inl ⟨text, by rw [asks, hcontact, hsome]; rfl, hparse⟩
    · exact .inl ⟨text, by rw [asks, hcontact]; rfl, hparse⟩

theorem askedSeconds_default (h : asks request contact = none) :
    askedSeconds cfg request contact = .ok (cfg.defaultExpires.tdiv Time.second) := by
  obtain ⟨hcontact, hheader⟩ := Option.or_eq_none_iff.mp h
  rw [askedSeconds, hheader, hcontact]
  rfl

theorem contactExpires_ok {d : ℤ} (h : contactExpires cfg request contact = .ok d) :
    ∃ seconds, askedSeconds cfg request contact = .ok seconds ∧ limited cfg seconds = .ok d := by
  rw [contactExpires_eq] at h
  split at h
  · cases h
  · next seconds hseconds => exact ⟨seconds, hseconds, h⟩

theorem contactExpires_tooBrief_iff : contactExpires cfg request contact = .error .tooBrief ↔
    ∃ seconds, askedSeconds cfg request contact = .ok seconds ∧ seconds ≠ 0 ∧
      seconds * Time.second < cfg.minExpires := by
  rw [contactExpires_eq]
  cases hasked : askedSeconds cfg request contact with
  | error err =>
    have hne : err ≠ .tooBrief := by
      rintro rfl
      unfold askedSeconds at hasked
      split at hasked
      · next hheader =>
        rw [hasked] at hheader
        exact expiresSeconds_ne_tooBrief _ _ hheader
      · exact expiresSeconds_ne_tooBrief _ _ hasked
    simp [hne]
  | ok seconds =>
    dsimp only [limited]
    split_ifs with hzero hbrief hlong
    · simp [hzero]
    · simp [hzero, hbrief]
    · simp [hbrief]
    · simp [hbrief]

/-! ## The bounds -/

theorem bounds_of_newHandler (h : newHandler cfg = .ok ()) :
    0 < cfg.minExpires ∧ cfg.minExpires ≤ cfg.defaultExpires ∧
      cfg.defaultExpires ≤ cfg.maxExpires := by
  unfold newHandler at h
  split_ifs at h with hrealm hbounds htimeout
  omega

theorem limited_eq_zero (h : newHandler cfg = .ok ()) (hlimited : limited cfg seconds = .ok 0) :
    seconds = 0 := by
  have hbounds := bounds_of_newHandler h
  unfold limited at hlimited
  split_ifs at hlimited with hzero hbrief hlong
  · exact hzero
  · have := Except.ok.inj hlimited
    omega
  · have := Except.ok.inj hlimited
    omega

theorem limited_range (h : newHandler cfg = .ok ()) {d : ℤ} (hlimited : limited cfg seconds = .ok d)
    (hd : d ≠ 0) : cfg.minExpires ≤ d ∧ d ≤ cfg.maxExpires := by
  have hbounds := bounds_of_newHandler h
  unfold limited at hlimited
  split_ifs at hlimited with hzero hbrief hlong
  · exact absurd (Except.ok.inj hlimited).symm hd
  · have := Except.ok.inj hlimited
    omega
  · have := Except.ok.inj hlimited
    omega

theorem second_dvd_iff {d : ℤ} : Time.second ∣ d ↔ d / Time.second * Time.second = d :=
  ⟨Int.ediv_mul_cancel, fun h => Dvd.intro_left _ h⟩

/-- The default has whole seconds exactly if it is what they are limited to. -/
theorem limited_default_iff (h : newHandler cfg = .ok ()) :
    limited cfg (cfg.defaultExpires.tdiv Time.second) = .ok cfg.defaultExpires ↔
      Time.second ∣ cfg.defaultExpires := by
  have hbounds := bounds_of_newHandler h
  have hle : cfg.defaultExpires / Time.second * Time.second ≤ cfg.defaultExpires :=
    Int.ediv_mul_le _ (by decide)
  rw [Int.tdiv_eq_ediv_of_nonneg (by omega), second_dvd_iff]
  generalize hs : cfg.defaultExpires / Time.second = seconds at hle ⊢
  constructor
  · intro hlimited
    unfold limited at hlimited
    split_ifs at hlimited with hzero hbrief hlong
    · have := Except.ok.inj hlimited
      omega
    · omega
    · exact Except.ok.inj hlimited
  · intro hwhole
    have hne : seconds ≠ 0 := by
      rintro rfl
      omega
    rw [limited, if_neg hne, hwhole, if_neg (by omega), if_neg (by omega)]

/-! ## 423 responses -/

/-- The response to a contact that asks for too brief an interval. -/
def briefResponse (cfg : Config) : Response :=
  ⟨statusIntervalTooBrief, "Interval Too Brief",
    [("Min-Expires", toString (cfg.minExpires.tdiv Time.second))], []⟩

/-- Only responses that satisfy `R`. -/
def Responds (R : Response → Prop) : registrarSig.Op → Prop
  | .inl (.respond response) => R response
  | _ => True

section Responds

variable {R : Response → Prop}

theorem responds_manager {α : Type} (p : Prog Registration.managerSig α) :
    Only (Responds R) (Prog.inr p : Prog registrarSig α) :=
  only_inr (only_of_forall (fun _ => trivial) p)

theorem responds_respond {response : Response} (h : R response) :
    Only (Responds R) (respond response) := by
  refine only_bind (only_inl (only_call.mpr h)) fun ok => ?_
  split_ifs
  · exact only_pure
  · exact only_pure

theorem responds_respondBindings (hok : ∀ contacts, R ⟨200, "OK", [], contacts⟩)
    (tenantID aor : String) : Only (Responds R) (respondBindings T tenantID aor) := by
  refine only_bind (responds_manager _) fun result => ?_
  cases result with
  | error err => exact only_pure
  | ok bindings =>
    refine only_bind (only_inl (only_call.mpr trivial)) fun now => ?_
    split
    · exact only_pure
    · exact responds_respond (hok _)

theorem responds_handleContact (hrefuse : ∀ status reason, status ≠ statusIntervalTooBrief →
      R ⟨status, reason, [], []⟩) (r : Registrant) (given : Option Contact)
    (hbrief : ∀ contact, given = some contact → contactExpires cfg request contact = .error .tooBrief →
      R (briefResponse cfg)) :
    Only (Responds R) (handleContact cfg T request r given) := by
  have hrefused : ∀ status reason, status ≠ statusIntervalTooBrief →
      Only (Responds R) (do return some (← refuse status reason)) := fun status reason hstatus =>
    only_bind (responds_respond (hrefuse status reason hstatus)) fun _ => only_pure
  unfold handleContact
  split
  · exact hrefused _ _ (by decide)
  · next contact =>
    split
    · next htooBrief =>
      exact only_bind (responds_respond (hbrief contact rfl htooBrief)) fun _ => only_pure
    · exact hrefused _ _ (by decide)
    · split
      · exact hrefused _ _ (by decide)
      · refine only_bind (responds_manager _) fun result => ?_
        split
        · exact hrefused _ _ (by decide)
        · exact only_pure
        · exact only_pure

theorem responds_handleContacts (hrefuse : ∀ status reason, status ≠ statusIntervalTooBrief →
      R ⟨status, reason, [], []⟩) (r : Registrant) (contacts : List (Option Contact))
    (hbrief : ∀ contact, some contact ∈ contacts →
      contactExpires cfg request contact = .error .tooBrief →
      R (briefResponse cfg)) :
    Only (Responds R) (handleContacts cfg T request r contacts) := by
  induction contacts with
  | nil => exact only_pure
  | cons given contacts ih =>
    have hhead := responds_handleContact (T := T) hrefuse r given fun contact hgiven =>
      hbrief contact (hgiven ▸ List.mem_cons_self)
    refine only_bind hhead fun outcome => ?_
    cases outcome with
    | some outcome => exact only_pure
    | none => exact ih fun contact hmem => hbrief contact (List.mem_cons_of_mem _ hmem)

/-- The responses of `handle`: one that is not 423 without headers but for the challenge, or 423 with the
minimum for a contact that asks for too brief an interval. -/
theorem responds_handle (hok : ∀ contacts, R ⟨200, "OK", [], contacts⟩)
    (hrefuse : ∀ status reason, status ≠ statusIntervalTooBrief → R ⟨status, reason, [], []⟩)
    (hchallenge : ∀ text, R ⟨401, "Unauthorized", [("WWW-Authenticate", text)], []⟩)
    (hbrief : ∀ contact, some contact ∈ request.contacts →
      contactExpires cfg request contact = .error .tooBrief →
      R (briefResponse cfg)) :
    Only (Responds R) (handle cfg T request) := by
  have hrefused : ∀ status reason, status ≠ statusIntervalTooBrief →
      Only (Responds R) (refuse status reason) := fun status reason hstatus =>
    responds_respond (hrefuse status reason hstatus)
  have hchallenged : ∀ stale, Only (Responds R) (challenge stale) := by
    intro stale
    refine only_bind (only_inl (only_call.mpr trivial)) fun text => ?_
    cases text with
    | none => exact only_pure
    | some text => exact responds_respond (hchallenge text)
  have hauthenticated : ∀ credential,
      Only (Responds R) (handleAuthenticated cfg T request credential) := by
    intro credential
    unfold handleAuthenticated
    dsimp only
    split_ifs
    · exact responds_respondBindings hok _ _
    split
    · split
      · refine only_bind (responds_handleContacts hrefuse _ _ hbrief) fun outcome => ?_
        cases outcome with
        | some outcome => exact only_pure
        | none => exact responds_respondBindings hok _ _
      · exact hrefused _ _ (by decide)
    · exact hrefused _ _ (by decide)
  unfold handle
  split
  · split_ifs
    · exact hrefused _ _ (by decide)
    refine only_bind (only_inl (only_call.mpr trivial)) fun verdict => ?_
    cases verdict with
    | error err => exact hchallenged _
    | ok credential =>
      dsimp only
      split_ifs
      · exact hchallenged _
      · exact hauthenticated credential
  · exact hrefused _ _ (by decide)

end Responds

/-- The run gives the response. -/
def Answers (response : Response) (t : List (Event registrarSig)) : Prop :=
  ∃ ok, (⟨.inl (.respond response), ok⟩ : Event registrarSig) ∈ t

theorem brief_of_answers {t : List (Event registrarSig)} {q : Prog registrarSig Outcome}
    {response : Response} (hpath : Path (handle cfg T request) t q) (hanswers : Answers response t)
    (hstatus : response.status = statusIntervalTooBrief) :
    response.headers = [("Min-Expires", toString (cfg.minExpires.tdiv Time.second))] ∧
      ∃ contact, some contact ∈ request.contacts ∧
        contactExpires cfg request contact = .error .tooBrief := by
  obtain ⟨ok, hmem⟩ := hanswers
  have honly : Only (Responds fun response => response.status = statusIntervalTooBrief →
      response.headers = [("Min-Expires", toString (cfg.minExpires.tdiv Time.second))] ∧
        ∃ contact, some contact ∈ request.contacts ∧
          contactExpires cfg request contact = .error .tooBrief) (handle cfg T request) := by
    refine responds_handle ?_ ?_ ?_ ?_
    · rintro contacts ⟨⟩
    · exact fun status reason hne h => absurd h hne
    · rintro text ⟨⟩
    · exact fun contact hcontact hbrief _ => ⟨rfl, contact, hcontact, hbrief⟩
  exact honly.of_path hpath _ hmem hstatus

/-! ## Asking again -/

/-- The same request, but every contact asks for the interval `text`. -/
structure Retries (text : String) (request retry : Register) : Prop where
  rest : retry = { request with expires := retry.expires, contacts := retry.contacts }
  contacts : retry.contacts.map (Option.map fun c => { c with expires := none }) =
    request.contacts.map (Option.map fun c => { c with expires := none })
  asks : ∀ contact, some contact ∈ retry.contacts → asks retry contact = some text

/-- A request that was answered 423 is not answered so again if it asks for the interval of the
response. -/
def RetrySucceeds (cfg : Config) : Prop :=
  ∀ (T : Texts) (request retry : Register) (t u : List (Event registrarSig))
    (q q' : Prog registrarSig Outcome) (response response' : Response) (text : String),
    Path (handle cfg T request) t q → Answers response t →
    response.status = statusIntervalTooBrief → ("Min-Expires", text) ∈ response.headers →
    Retries text request retry → Path (handle cfg T retry) u q' → Answers response' u →
    response'.status ≠ statusIntervalTooBrief

/-- The advertised interval is read back, if it fits. -/
theorem parseInt_minExpires (h : newHandler cfg = .ok ()) :
    Text.parseInt 32 (toString (cfg.minExpires.tdiv Time.second)) =
      if cfg.minExpires / Time.second < 2 ^ 31 then some (cfg.minExpires / Time.second) else none := by
  have hbounds := bounds_of_newHandler h
  have hnonneg : 0 ≤ cfg.minExpires / Time.second := Int.ediv_nonneg hbounds.1.le (by decide)
  rw [Int.tdiv_eq_ediv_of_nonneg hbounds.1.le]
  obtain ⟨n, hn⟩ := Int.eq_ofNat_of_zero_le hnonneg
  rw [hn]
  have hread := Text.parseInt_itoa 32 n
  have hlt : (n : ℤ) < 2 ^ 31 ↔ n < 2 ^ (32 - 1) := by omega
  simp only [hlt]
  exact hread

def askingContact (interval : String) : Contact := ⟨false, "sip:alice@10.0.0.7", some interval, none⟩

def asking (realm interval : String) : Register where
  method := "REGISTER"
  recipient := "sip:pbx"
  toHeader := some ⟨"alice", realm⟩
  authorization := none
  source := "10.0.0.7:5060"
  transport := "UDP"
  userAgent := none
  expires := none
  contacts := [some (askingContact interval)]

def plainTexts : Texts where
  parseAddrPort _ := some ⟨.v4 0x0A000007, 5060⟩
  addrPortString _ := "10.0.0.7:5060"
  parseUri text := some text
  parseFloat _ := none
  firstBytes n text := String.ofList (text.toList.take n)

theorem asking_tooBrief {interval : String} (h : Text.parseInt 32 interval = some seconds)
    (hpos : 0 < seconds) (hbrief : seconds * Time.second < cfg.minExpires) :
    contactExpires cfg (asking cfg.realm interval) (askingContact interval) = .error .tooBrief := by
  have hseconds : askedSeconds cfg (asking cfg.realm interval) (askingContact interval) =
      .ok seconds := by
    show expiresSeconds (cfg.defaultExpires.tdiv Time.second) (some interval) = .ok seconds
    rw [expiresSeconds, h]
    exact if_neg (by omega)
  exact contactExpires_tooBrief_iff.mpr ⟨seconds, hseconds, hpos.ne', hbrief⟩

/-- The request is answered 423 once Alice is authenticated. -/
theorem answers_asking {interval : String}
    (hbrief : contactExpires cfg (asking cfg.realm interval) (askingContact interval) =
      .error .tooBrief) :
    ∃ t q, Path (handle cfg plainTexts (asking cfg.realm interval)) t q ∧
      Answers (briefResponse cfg) t := by
  have hcontact : ∀ r, Returns (handleContact cfg plainTexts (asking cfg.realm interval) r
      (some (askingContact interval))) [⟨.inl (.respond (briefResponse cfg)), true⟩]
      (some (.ok ())) := by
    intro r
    unfold handleContact
    dsimp only
    rw [hbrief]
    exact .cons (.nil _)
  have htransport : parseTransport "UDP" = some .udp := by decide
  have hauthenticated : ∃ q, Path (handleAuthenticated cfg plainTexts (asking cfg.realm interval)
      ⟨"t", "alice", cfg.realm, "", 1⟩) [⟨.inl (.respond (briefResponse cfg)), true⟩] q := by
    unfold handleAuthenticated
    simp only [asking, plainTexts, htransport, List.cons_ne_nil, if_false]
    exact ⟨_, ((hcontact _).bind (.nil _)).bind _⟩
  obtain ⟨q, hq⟩ := hauthenticated
  have hpath : Path (handle cfg plainTexts (asking cfg.realm interval))
      ([⟨.inl (.verify "REGISTER" "sip:pbx" ""), .ok ⟨"t", "alice", cfg.realm, "", 1⟩⟩] ++
        [⟨.inl (.respond (briefResponse cfg)), true⟩]) q := by
    unfold handle
    simp only [asking, Option.getD_none, ne_eq, not_true_eq_false, or_false]
    refine Returns.bind (.cons (.nil _)) ?_
    simpa [asking] using hq
  exact ⟨_, q, hpath, true, List.mem_append_right _ List.mem_cons_self⟩

/-- Cut down to whole seconds, the advertised minimum is too brief again. -/
theorem not_retrySucceeds (h : newHandler cfg = .ok ())
    (hpart : cfg.minExpires / Time.second * Time.second ≠ cfg.minExpires)
    (hlarge : Time.second ≤ cfg.minExpires) (hfits : cfg.minExpires < 2 ^ 31 * Time.second) :
    ¬ RetrySucceeds cfg := by
  intro hretry
  have hsecond : 0 < Time.second := by decide
  have hcut : cfg.minExpires / Time.second * Time.second < cfg.minExpires :=
    lt_of_le_of_ne (Int.ediv_mul_le _ hsecond.ne') hpart
  have hpos : 1 ≤ cfg.minExpires / Time.second := Int.le_ediv_of_mul_le hsecond (by omega)
  have hlt : cfg.minExpires / Time.second < 2 ^ 31 := Int.ediv_lt_of_lt_mul hsecond hfits
  have hparse := parseInt_minExpires h
  rw [if_pos hlt] at hparse
  -- one second is too brief, and so is the minimum that is advertised
  have hone : 1 * Time.second < cfg.minExpires :=
    (Int.mul_le_mul_of_nonneg_right hpos hsecond.le).trans_lt hcut
  have hfirst := asking_tooBrief (show Text.parseInt 32 "1" = some 1 by decide) one_pos hone
  have hagain := asking_tooBrief hparse (by omega) hcut
  obtain ⟨t, q, hpath, hanswers⟩ := answers_asking hfirst
  obtain ⟨u, q', hpath', hanswers'⟩ := answers_asking hagain
  have hretries : Retries (toString (cfg.minExpires.tdiv Time.second)) (asking cfg.realm "1")
      (asking cfg.realm (toString (cfg.minExpires.tdiv Time.second))) := by
    refine ⟨rfl, rfl, fun contact hcontact => ?_⟩
    cases List.mem_singleton.mp hcontact
    rfl
  exact hretry plainTexts _ _ t u q q' _ _ _ hpath hanswers rfl List.mem_cons_self hretries hpath'
    hanswers' rfl

/-- A retry asks for the minimum itself, for zero, or for what is no number of 32 bits. -/
theorem retrySucceeds_of (h : newHandler cfg = .ok ())
    (hcondition : cfg.minExpires / Time.second * Time.second = cfg.minExpires ∨
      cfg.minExpires < Time.second ∨ 2 ^ 31 * Time.second ≤ cfg.minExpires) : RetrySucceeds cfg := by
  intro T request retry t u q q' response response' text hpath hanswers hstatus hheader hretries
    hpath' hanswers' hstatus'
  obtain ⟨hheaders, -⟩ := brief_of_answers hpath hanswers hstatus
  obtain ⟨-, contact, hcontact, hbrief⟩ := brief_of_answers hpath' hanswers' hstatus'
  have htext : text = toString (cfg.minExpires.tdiv Time.second) := by
    rw [hheaders] at hheader
    simpa using hheader
  obtain ⟨seconds, hasked, hne, hlt⟩ := contactExpires_tooBrief_iff.mp hbrief
  have hasks := hretries.asks contact hcontact
  rcases askedSeconds_ok hasked with ⟨text', htext', hparse'⟩ | ⟨hnone, -⟩
  · cases htext'.symm.trans hasks
    rw [htext, parseInt_minExpires h] at hparse'
    split_ifs at hparse' with hfits
    cases hparse'
    rcases hcondition with hwhole | hsmall | hlarge
    · omega
    · exact hne (Int.ediv_eq_zero_of_lt (bounds_of_newHandler h).1.le hsmall)
    · have := Int.le_ediv_of_mul_le (show 0 < Time.second by decide) hlarge
      omega
  · rw [hasks] at hnone
    cases hnone

theorem retrySucceeds_iff (h : newHandler cfg = .ok ()) : RetrySucceeds cfg ↔
    Time.second ∣ cfg.minExpires ∨ cfg.minExpires < Time.second ∨
      2 ^ 31 * Time.second ≤ cfg.minExpires := by
  rw [second_dvd_iff]
  constructor
  · intro hretry
    by_contra hnot
    simp only [not_or, not_lt, not_le] at hnot
    obtain ⟨hpart, hlarge, hfits⟩ := hnot
    exact not_retrySucceeds h hpart hlarge hfits hretry
  · exact retrySucceeds_of h

/-- **Registration intervals.** With a configuration `NewHandler` accepts, four things hold together
exactly if the default has whole seconds, and the minimum has whole seconds, or is below one second, or
has 2³¹ seconds or more: zero is returned only to a contact that asks for it; every other interval is
within the bounds; a contact that asks for nothing gets the default; and a request that is answered 423
is not answered so again with the interval that the response advertises. -/
theorem intervals_consistent_iff (h : newHandler cfg = .ok ()) :
    ((∀ request contact, contactExpires cfg request contact = .ok 0 →
        ∃ text, asks request contact = some text ∧ Text.parseInt 32 text = some 0) ∧
      (∀ request contact d, contactExpires cfg request contact = .ok d → d ≠ 0 →
        cfg.minExpires ≤ d ∧ d ≤ cfg.maxExpires) ∧
      (∀ request contact, request.expires = none → contact.expires = none →
        contactExpires cfg request contact = .ok cfg.defaultExpires) ∧
      RetrySucceeds cfg) ↔
    Time.second ∣ cfg.defaultExpires ∧ (Time.second ∣ cfg.minExpires ∨
      cfg.minExpires < Time.second ∨ 2 ^ 31 * Time.second ≤ cfg.minExpires) := by
  have hdefault : ∀ request contact, asks request contact = none → contactExpires cfg request contact =
      limited cfg (cfg.defaultExpires.tdiv Time.second) := by
    intro request contact hnone
    rw [contactExpires_eq, askedSeconds_default hnone]
  rw [← retrySucceeds_iff h, ← limited_default_iff h]
  constructor
  · rintro ⟨-, -, hnothing, hretry⟩
    have hsilent := hnothing { asking "" "" with expires := none }
      { askingContact "" with expires := none } rfl rfl
    exact ⟨(hdefault _ _ rfl).symm.trans hsilent, hretry⟩
  · rintro ⟨hwhole, hretry⟩
    refine ⟨?_, ?_, ?_, hretry⟩
    · intro request contact hzero
      obtain ⟨seconds, hasked, hlimited⟩ := contactExpires_ok hzero
      obtain rfl := limited_eq_zero h hlimited
      rcases askedSeconds_ok hasked with hgiven | ⟨hnone, -⟩
      · exact hgiven
      · -- the default is not zero
        rw [hdefault request contact hnone, hwhole] at hzero
        have hbounds := bounds_of_newHandler h
        have := Except.ok.inj hzero
        omega
    · intro request contact d hd hne
      obtain ⟨seconds, -, hlimited⟩ := contactExpires_ok hd
      exact limited_range h hlimited hne
    · intro request contact hheader hparameter
      rw [hdefault request contact (by rw [asks, hheader, hparameter]; rfl), hwhole]

theorem intervals_consistent_whole :
    newHandler homeConfig = .ok () ∧ RetrySucceeds homeConfig ∧
      contactExpires homeConfig { asking "pbx" "" with contacts := [] }
        { askingContact "" with expires := none } = .ok (3600 * Time.second) := by
  have hnew : newHandler homeConfig = .ok () := by rfl
  have hall := (intervals_consistent_iff hnew).mpr ⟨by decide, by decide⟩
  exact ⟨hnew, hall.2.2.2, hall.2.2.1 _ _ rfl rfl⟩

/-- A default of half a second unregisters who asks for nothing, and a minimum of one and a half is
advertised as one second, which is too brief. -/
theorem interval_cut_down :
    (newHandler ⟨"pbx", 500000000, 500000000, Time.second, Time.second⟩ = .ok () ∧
      contactExpires ⟨"pbx", 500000000, 500000000, Time.second, Time.second⟩
        { asking "pbx" "" with contacts := [] } { askingContact "" with expires := none } = .ok 0) ∧
    newHandler ⟨"pbx", 2 * Time.second, 1500000000, 2 * Time.second, Time.second⟩ = .ok () ∧
      briefResponse ⟨"pbx", 2 * Time.second, 1500000000, 2 * Time.second, Time.second⟩ =
        ⟨423, "Interval Too Brief", [("Min-Expires", "1")], []⟩ ∧
      ∃ t q, Path (handle ⟨"pbx", 2 * Time.second, 1500000000, 2 * Time.second, Time.second⟩ plainTexts
          (asking "pbx" "1")) t q ∧
        Answers (briefResponse ⟨"pbx", 2 * Time.second, 1500000000, 2 * Time.second, Time.second⟩) t := by
  refine ⟨⟨rfl, by decide⟩, rfl, by decide, ?_⟩
  exact answers_asking (asking_tooBrief (by decide) one_pos (by decide))

end AixvolinkPbx.Registrar

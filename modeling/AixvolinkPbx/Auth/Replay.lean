import AixvolinkPbx.Auth.Digest

/-!
# Replay safety of concurrent `Verify` calls

Any number of `Verify` calls run on one `Authenticator`, their operations interleaved in any order
over one clock and one replay map. The question is whether the nonce counts accepted for one nonce
and user grow in the order of the critical sections.

They need not. A call reads the clock in `validateNonce` and only later runs its critical section;
meanwhile another call that finds the map full deletes the entry of the nonce once it has expired,
and the first call then finds no entry to compare with (`replay_accepted_twice`).

That is the only way: `accepted_increasing_of_no_live_sweep` shows the counts to grow in every run
in which no sweep deletes an entry that a call in flight would still have been rejected by.

1. `verifyMonitor` follows a call through its clock readings to its critical section, and
   `verify_safe` shows `Verify` to keep to it.
2. `ReplayInv` ties what was accepted to the replay map and to the calls in flight; the steps keep
   it (`replayInv_record`).
-/

namespace AixvolinkPbx.Auth

open Prog (Safe safe_bind safe_call safe_pure safe_mono)

variable (cfg : Config) (P : Primitives)

/-! ## The system -/

structure AuthShared where
  clock : ℤ
  replay : Replay

def performAuth : AuthShared → (e : AuthOp) → authSig.Ans e → AuthShared → Prop
  | sh, .now, t, sh' => t = sh.clock ∧ sh' = sh
  | sh, .random, _, sh' => sh' = sh
  | sh, .lookupCredential _ _, _, sh' => sh' = sh
  | sh, .record key nonceCount expiresAt now, r, sh' =>
    (r, sh'.replay) = recordNonceCount cfg sh.replay key nonceCount expiresAt now ∧
      sh'.clock = sh.clock

/-- Calls of `Verify` on one `Authenticator`; the clock advances by any amount at any time. -/
def authSystem : System authSig VerifyCall (Except AuthError Credential) AuthShared ℕ where
  prog := verify cfg P
  spawns _ _ := True
  perform sh _ e r sh' := performAuth cfg sh e r sh'
  env sh d sh' := sh' = { sh with clock := sh.clock + d }

abbrev AuthState := System.State authSig VerifyCall (Except AuthError Credential) AuthShared
abbrev AuthLabel := System.Label authSig VerifyCall ℕ

def initialAuth (t : ℤ) : AuthShared := ⟨t, ∅⟩

/-- A successful critical section: the call that ran it, its key and its nonce count. -/
structure Accepted where
  call : ℕ
  key : ReplayKey
  nonceCount : ℤ
  deriving DecidableEq, Repr

def acceptedBy : AuthLabel → Option Accepted
  | .act i ⟨.record key nonceCount _ _, .ok _⟩ => some ⟨i, key, nonceCount⟩
  | _ => none

/-- What a run accepts, in the order of the critical sections. -/
def accepted (ls : List AuthLabel) : List Accepted := ls.filterMap acceptedBy

/-- The counts accepted for one nonce and user grow. -/
def Increasing (as : List Accepted) : Prop :=
  as.Pairwise fun a b => a.key = b.key → a.nonceCount < b.nonceCount

/-! ## `Verify` and its monitor -/

/-- How far a call is: the clock reading of `validateNonce`, then that of `recordNonceCount`, then
the outcome of its critical section. -/
inductive Stage
  | start
  | validated (t : ℤ)
  | timed (t now : ℤ)
  | recorded (ok : Bool)
  | bad
  deriving DecidableEq

structure Ghost where
  credentials : Option Credentials
  stage : Stage

/-- The expiry of a nonce, a function of the nonce alone. -/
def expiry (nonce : String) : Option ℤ :=
  (nonceMessage cfg P nonce).map fun message => issuedAt message + cfg.nonceTTL

def Credentials.key (c : Credentials) : ReplayKey := ⟨c.nonce, c.username⟩

/-- A critical section a call may run: with its own key and count, its second clock reading, and the
expiry of its nonce, which its first clock reading was before. -/
def Due (c : Credentials) (t t' : ℤ) (key : ReplayKey) (nonceCount : ℤ) (expiresAt now : ℤ) :
    Prop :=
  key = c.key ∧ nonceCount = c.nc ∧ now = t' ∧ expiry cfg P c.nonce = some expiresAt ∧ t < expiresAt

instance (c : Credentials) (t t' : ℤ) (key : ReplayKey) (n : ℤ) (expiresAt now : ℤ) :
    Decidable (Due cfg P c t t' key n expiresAt now) := by unfold Due; infer_instance

def isOk {ε α : Type} : Except ε α → Bool
  | .ok _ => true
  | .error _ => false

def nextStage : Ghost → (e : AuthOp) → authSig.Ans e → Stage
  | ⟨_, .start⟩, .now, t => .validated t
  | ⟨_, .validated t⟩, .lookupCredential _ _, _ => .validated t
  | ⟨_, .validated t⟩, .now, t' => .timed t t'
  | ⟨some c, .timed t t'⟩, .record key nonceCount expiresAt now, r =>
    if Due cfg P c t t' key nonceCount expiresAt now then .recorded (isOk r) else .bad
  | _, _, _ => .bad

/-- The order of operations of a `Verify` call. -/
def verifyMonitor : Monitor authSig Ghost where
  next g e r := ⟨g.credentials, nextStage cfg P g e r⟩
  good g := g.stage ≠ .bad
  admits _ _ := True

def ghost₀ (call : VerifyCall) : Ghost := ⟨P.parseCredentials call.authorization, .start⟩

/-- A call returns a credential exactly after a successful critical section, and then that of the
user it names. -/
def Verdict (res : Except AuthError Credential) (g : Ghost) : Prop :=
  (isOk res = true ↔ g.stage = .recorded true) ∧
    ∀ credential, res = .ok credential →
      credential.realm = cfg.realm ∧ ∃ c, g.credentials = some c ∧ credential.username = c.username

theorem validateNonce_safe (c : Option Credentials) (nonce : String) :
    Safe (verifyMonitor cfg P) ⟨c, .start⟩ (validateNonce cfg P nonce) fun res g =>
      g.credentials = c ∧ ((∃ err, res.2 = some err) ∧ g.stage ≠ .recorded true ∨
        ∃ t, res.2 = none ∧ g.stage = .validated t ∧ expiry cfg P nonce = some res.1 ∧
          t < res.1) := by
  unfold validateNonce
  split
  · simp
  · next message hm =>
    have hexp : expiry cfg P nonce = some (issuedAt message + cfg.nonceTTL) := by
      simp [expiry, hm]
    simp only [now, safe_bind, safe_call]
    intro (t : ℤ) _
    refine ⟨by simp [verifyMonitor, nextStage], ?_⟩
    split_ifs with h1 h2
    · simp [verifyMonitor, nextStage]
    · simp [verifyMonitor, nextStage]
    · have : t < issuedAt message + cfg.nonceTTL := by omega
      simp [verifyMonitor, nextStage, hexp, this]

variable {c : Credentials}

theorem acceptable_realm {requestURI : String} (h : acceptable cfg requestURI c = true) :
    c.realm = cfg.realm := by
  simp only [acceptable, Bool.and_eq_true, decide_eq_true_eq] at h
  exact h.1.1.1.1.1

theorem verify_safe (call : VerifyCall) :
    Safe (verifyMonitor cfg P) (ghost₀ P call) (verify cfg P call) (Verdict cfg) := by
  unfold verify ghost₀
  split
  · simp [Verdict, isOk]
  cases hc : P.parseCredentials call.authorization with
  | none => simp [Verdict, isOk]
  | some c =>
    by_cases hacc : acceptable cfg call.requestURI c
    swap
    · simp [hacc, Verdict, isOk]
    simp only [hacc, Bool.not_true, Bool.false_eq_true, if_false]
    refine .bind (validateNonce_safe cfg P (some c) c.nonce) ?_
    rintro ⟨expiresAt, err⟩ ⟨_, stage⟩ ⟨rfl, ⟨⟨err, rfl⟩, hstage⟩
      | ⟨t, rfl, rfl, hexp, hlt⟩⟩
    · simpa [Verdict, isOk] using hstage
    simp only [lookupCredential, now, record, safe_bind, safe_call]
    rintro (_ | credential) _
    · simp [Verdict, isOk, verifyMonitor, nextStage]
    refine ⟨by simp [verifyMonitor, nextStage], ?_⟩
    dsimp only
    split_ifs with h1 h2
    · simp [Verdict, isOk, verifyMonitor, nextStage]
    · simp [Verdict, isOk, verifyMonitor, nextStage]
    · simp only [safe_bind, safe_call]
      intro (now : ℤ) _
      refine ⟨by simp [verifyMonitor, nextStage], fun r _ => ?_⟩
      have hdue : Due cfg P c t now ⟨c.nonce, c.username⟩ c.nc expiresAt now :=
        ⟨rfl, rfl, rfl, hexp, hlt⟩
      have hok : credential.realm = cfg.realm ∧ credential.username = c.username := by
        have := acceptable_realm cfg hacc
        grind
      refine ⟨by simp [verifyMonitor, nextStage, hdue], ?_⟩
      cases r with
      | error err => simp [Verdict, isOk, verifyMonitor, nextStage, hdue]
      | ok _ => simp [Verdict, isOk, verifyMonitor, nextStage, hdue, hok]

/-! ## The condition -/

def InFlight (th : Thread authSig VerifyCall (Except AuthError Credential)) : Prop :=
  th.past ≠ [] ∧ th.live = true

/-- A critical section for `key` at `now` deletes the entry of `k`. -/
def Sweeps (replay : Replay) (key : ReplayKey) (now : ℤ) (k : ReplayKey) (entry : ReplayEntry) :
    Prop :=
  replay.lookup key = none ∧ cfg.maxReplayEntries ≤ replay.size ∧ replay.lookup k = some entry ∧
    entry.expiresAt ≤ now

/-- A step that deletes no entry by which a call in flight would still be rejected. -/
def NoLiveSweep (st : AuthState) : AuthLabel → Prop
  | .act _ ⟨.record key _ _ now, _⟩ => ∀ th ∈ st.threads, InFlight th →
      ∀ c, P.parseCredentials th.arg.authorization = some c →
        ∀ entry, Sweeps cfg st.shared.replay key now c.key entry → entry.maxNonceCount < c.nc
  | _ => True

/-! ## The invariant -/

def Stage.read : Stage → Option ℤ
  | .validated t => some t
  | .timed t _ => some t
  | _ => none

abbrev SeenCall := System.Seen VerifyCall Ghost

/-- A call on its way to its critical section. -/
def Pending (v : SeenCall) (c : Credentials) : Prop :=
  v.live = true ∧ v.ghost.credentials = some c ∧
    ∃ t e, v.ghost.stage.read = some t ∧ expiry cfg P c.nonce = some e ∧ t < e

/-- The nonce has expired and every call still on its way with it has a larger count. -/
def Lapsed (clock : ℤ) (vs : List SeenCall) (key : ReplayKey) (nonceCount : ℤ) : Prop :=
  ∃ e, expiry cfg P key.nonce = some e ∧ e ≤ clock ∧
    ∀ v ∈ vs, ∀ c, Pending cfg P v c → c.key = key → nonceCount < c.nc

/-- The replay map has an entry that rejects the count. -/
def Held (replay : Replay) (key : ReplayKey) (nonceCount : ℤ) : Prop :=
  ∃ entry, replay.lookup key = some entry ∧ nonceCount ≤ entry.maxNonceCount

structure ReplayInv (ls : List AuthLabel) (sh : AuthShared) (vs : List SeenCall) : Prop where
  /-- Clock readings are past. -/
  reads : ∀ v ∈ vs, ∀ t, v.ghost.stage.read = some t → t ≤ sh.clock
  second : ∀ v ∈ vs, ∀ t now, v.ghost.stage = .timed t now → now ≤ sh.clock
  /-- An entry expires when its nonce does. -/
  expires : ∀ k entry, sh.replay.lookup k = some entry →
    expiry cfg P k.nonce = some entry.expiresAt
  /-- What was accepted is still held, or its nonce has lapsed. -/
  covered : ∀ a ∈ accepted ls, Held sh.replay a.key a.nonceCount ∨
    Lapsed cfg P sh.clock vs a.key a.nonceCount
  /-- A call whose critical section succeeded is among what was accepted. -/
  recorded : ∀ i v, vs[i]? = some v → v.ghost.stage = .recorded true →
    ∃ c, v.ghost.credentials = some c ∧ ⟨i, c.key, c.nc⟩ ∈ accepted ls
  increasing : Increasing (accepted ls)

variable {cfg P} {ls : List AuthLabel} {sh : AuthShared} {vs : List SeenCall} {i : ℕ}
  {v v' : SeenCall}

theorem Pending.of_read (hlive : v.live = true) (hc : v'.ghost.credentials = v.ghost.credentials)
    (hread : v'.ghost.stage.read = v.ghost.stage.read) (h : Pending cfg P v' c) :
    Pending cfg P v c := by
  obtain ⟨-, hc', t, e, ht, he⟩ := h
  exact ⟨hlive, hc ▸ hc', t, e, hread ▸ ht, he⟩

theorem Pending.read_ne_none (h : Pending cfg P v c) :
    v.ghost.stage.read ≠ none := by
  obtain ⟨-, -, t, e, ht, -⟩ := h
  simp [ht]

variable {key : ReplayKey} {nonceCount : ℤ}

/-- A lapsed nonce stays lapsed while the clock runs and no further call is on its way with it. -/
theorem Lapsed.mono {clock clock' : ℤ} {vs' : List SeenCall}
    (h : Lapsed cfg P clock vs key nonceCount) (hclock : clock ≤ clock')
    (hpend : ∀ w ∈ vs', ∀ c, Pending cfg P w c → c.key = key → ∃ w' ∈ vs, Pending cfg P w' c) :
    Lapsed cfg P clock' vs' key nonceCount := by
  obtain ⟨e, he, hle, hall⟩ := h
  refine ⟨e, he, Int.le_trans hle hclock, fun w hw c hc hk => ?_⟩
  obtain ⟨w', hw', hc'⟩ := hpend w hw c hc hk
  exact hall w' hw' c hc' hk

theorem accepted_append (ls : List AuthLabel) (l : AuthLabel) :
    accepted (ls ++ [l]) = accepted ls ++ (acceptedBy l).toList := by
  rw [accepted, accepted, List.filterMap_append]
  cases h : acceptedBy l <;> simp [h]

variable {l : AuthLabel}

/-- A step that accepts nothing and leaves the shared state keeps the invariant once the readings of
its thread stay past and the thread is on its way only if it was. -/
theorem ReplayInv.quiet (h : ReplayInv cfg P ls sh vs) (hl : acceptedBy l = none) (hv : v ∈ vs)
    (i : ℕ) (hread : ∀ t, v'.ghost.stage.read = some t → t ≤ sh.clock)
    (hsecond : ∀ t now, v'.ghost.stage = .timed t now → now ≤ sh.clock)
    (hrec : v'.ghost.stage ≠ .recorded true)
    (hpend : ∀ a ∈ accepted ls, Lapsed cfg P sh.clock vs a.key a.nonceCount →
      ∀ c, Pending cfg P v' c → c.key = a.key → Pending cfg P v c) :
    ReplayInv cfg P (ls ++ [l]) sh (vs.set i v') where
  reads w hw := by
    rcases List.mem_or_eq_of_mem_set hw with hw | rfl
    · exact h.reads w hw
    · exact hread
  second w hw := by
    rcases List.mem_or_eq_of_mem_set hw with hw | rfl
    · exact h.second w hw
    · exact hsecond
  expires := h.expires
  covered a ha := by
    rw [accepted_append, hl, Option.toList_none, List.append_nil] at ha
    refine (h.covered a ha).imp_right fun hlapsed => ?_
    refine hlapsed.mono (Int.le_refl _) fun w hw c hc hk => ?_
    rcases List.mem_or_eq_of_mem_set hw with hw | rfl
    · exact ⟨w, hw, hc⟩
    · exact ⟨v, hv, hpend a ha hlapsed c hc hk⟩
  recorded j w hw hstage := by
    rw [accepted_append, hl, Option.toList_none, List.append_nil]
    rcases getElem?_set_cases hw with ⟨-, hw⟩ | ⟨-, rfl⟩
    · exact h.recorded j w hw hstage
    · exact absurd hstage hrec
  increasing := by
    rw [accepted_append, hl, Option.toList_none, List.append_nil]
    exact h.increasing

theorem ReplayInv.goes_on (h : ReplayInv cfg P ls sh vs) (hl : acceptedBy l = none) (hv : v ∈ vs)
    (hlive : v.live = true) (i : ℕ) (hcredentials : v'.ghost.credentials = v.ghost.credentials)
    (hread : v'.ghost.stage.read = v.ghost.stage.read)
    (hsecond : ∀ t now, v'.ghost.stage = .timed t now → now ≤ sh.clock)
    (hrec : v'.ghost.stage ≠ .recorded true) : ReplayInv cfg P (ls ++ [l]) sh (vs.set i v') := by
  refine h.quiet hl hv i ?_ hsecond hrec fun _ _ _ c hc _ => hc.of_read hlive hcredentials hread
  rw [hread]
  exact h.reads v hv

theorem nextStage_now {g : Ghost} {t' : ℤ} (h : nextStage cfg P g .now t' ≠ .bad) :
    g.stage = .start ∧ nextStage cfg P g .now t' = .validated t' ∨
      ∃ t, g.stage = .validated t ∧ nextStage cfg P g .now t' = .timed t t' := by
  obtain ⟨_ | c, _ | t | t | ok | _⟩ := g <;> simp_all [nextStage]

theorem nextStage_lookup {g : Ghost} {realm username : String} {r : Option Credential}
    (h : nextStage cfg P g (.lookupCredential realm username) r ≠ .bad) :
    ∃ t, g.stage = .validated t ∧
      nextStage cfg P g (.lookupCredential realm username) r = .validated t := by
  obtain ⟨_ | c, _ | t | t | ok | _⟩ := g <;> simp_all [nextStage]

variable {r : Except AuthError Unit} {expiresAt : ℤ}

theorem nextStage_record {g : Ghost} {now : ℤ}
    (h : nextStage cfg P g (.record key nonceCount expiresAt now) r ≠ .bad) :
    ∃ c t, g = ⟨some c, .timed t now⟩ ∧ key = c.key ∧ nonceCount = c.nc ∧
      expiry cfg P c.nonce = some expiresAt ∧ t < expiresAt ∧
      nextStage cfg P g (.record key nonceCount expiresAt now) r = .recorded (isOk r) := by
  obtain ⟨_ | c, _ | t | ⟨t, t'⟩ | ok | _⟩ := g
  case some.timed =>
    by_cases hdue : Due cfg P c t t' key nonceCount expiresAt now
    · obtain ⟨rfl, rfl, rfl, hexp, hlt⟩ := id hdue
      exact ⟨c, t, rfl, rfl, rfl, hexp, hlt, by simp [nextStage, hdue]⟩
    · simp [nextStage, hdue] at h
  all_goals simp [nextStage] at h

/-- Reading the clock: a call that reads it once a nonce has expired does not get on its way. -/
theorem replayInv_now (h : ReplayInv cfg P ls sh vs) (hv : v ∈ vs) (hlive : v.live = true)
    (hgood : nextStage cfg P v.ghost .now sh.clock ≠ .bad) (live : Bool) :
    ReplayInv cfg P (ls ++ [.act i ⟨.now, sh.clock⟩]) sh
      (vs.set i (v.next (verifyMonitor cfg P) .now sh.clock live)) := by
  set v' := v.next (verifyMonitor cfg P) .now sh.clock live
  rcases nextStage_now hgood with ⟨hstage, hnext⟩ | ⟨t, hstage, hnext⟩
  · have hstage' : v'.ghost.stage = .validated sh.clock := hnext
    have hread' : v'.ghost.stage.read = some sh.clock := by rw [hstage']; rfl
    refine h.quiet rfl hv i ?_ ?_ ?_ ?_
    · simp [hread']
    · simp [hstage']
    · simp [hstage']
    · rintro a ha ⟨e, he, hle, -⟩ c' ⟨-, -, t, e', ht, he', hlt⟩ hk
      cases hread'.symm.trans ht
      rw [← hk, Credentials.key, he'] at he
      cases he
      omega
  · have hstage' : v'.ghost.stage = .timed t sh.clock := hnext
    refine h.goes_on rfl hv hlive i rfl ?_ ?_ ?_
    · rw [hstage', hstage]
      rfl
    · simp [hstage']
    · simp [hstage']

theorem replayInv_lookup (h : ReplayInv cfg P ls sh vs) (hv : v ∈ vs) (hlive : v.live = true)
    {realm username : String} (r : Option Credential)
    (hgood : nextStage cfg P v.ghost (.lookupCredential realm username) r ≠ .bad) (live : Bool) :
    ReplayInv cfg P (ls ++ [.act i ⟨.lookupCredential realm username, r⟩]) sh
      (vs.set i (v.next (verifyMonitor cfg P) (.lookupCredential realm username) r live)) := by
  set v' := v.next (verifyMonitor cfg P) (.lookupCredential realm username) r live
  obtain ⟨t, hstage, hnext⟩ := nextStage_lookup hgood
  have hstage' : v'.ghost.stage = .validated t := hnext
  refine h.goes_on rfl hv hlive i rfl ?_ ?_ ?_
  · rw [hstage', hstage]
  · simp [hstage']
  · simp [hstage']

/-! ### The critical section -/

section Record

variable {replay replay' : Replay} {k : ReplayKey} {n now : ℤ}

/-- A held count is held after a critical section, unless that swept its entry. -/
theorem Held.record (hrec : (r, replay') = recordNonceCount cfg replay key nonceCount expiresAt now)
    (h : Held replay k n) :
    Held replay' k n ∨ ∃ entry, Sweeps cfg replay key now k entry ∧ n ≤ entry.maxNonceCount := by
  obtain ⟨entry, hentry, hle⟩ := h
  rcases recordNonceCount_cases hrec with ⟨_, _, _, _, rfl⟩ | ⟨old, hold, hlt, _, rfl⟩ |
    ⟨hnone, _, _, rfl⟩ | ⟨hnone, _, _, rfl⟩
  · exact .inl ⟨entry, hentry, hle⟩
  · by_cases hk : k = key
    · subst hk
      rw [hentry] at hold
      cases hold
      exact .inl ⟨_, AList.lookup_insert _, by dsimp only; omega⟩
    · exact .inl ⟨entry, by rwa [AList.lookup_insert_ne hk], hle⟩
  all_goals
    by_cases hsw : cfg.maxReplayEntries ≤ replay.size ∧ entry.expiresAt ≤ now
    · exact .inr ⟨entry, ⟨hnone, hsw.1, hentry, hsw.2⟩, hle⟩
  · exact .inl ⟨entry, lookup_makeRoom.mpr ⟨hentry, hsw⟩, hle⟩
  · have hk : k ≠ key := by rintro rfl; simp [hnone] at hentry
    exact .inl ⟨entry, by rw [AList.lookup_insert_ne hk, lookup_makeRoom]; exact ⟨hentry, hsw⟩, hle⟩

/-- A successful critical section leaves its count in the map, above every count that was held. -/
theorem held_of_record_ok
    (hrec : (r, replay') = recordNonceCount cfg replay key nonceCount expiresAt now)
    (hr : isOk r = true) :
    Held replay' key nonceCount ∧ ∀ n, Held replay key n → n < nonceCount := by
  rcases recordNonceCount_cases hrec with ⟨_, _, _, rfl, _⟩ | ⟨old, hold, hlt, _, rfl⟩ |
    ⟨_, _, rfl, _⟩ | ⟨hnone, _, _, rfl⟩
  · simp [isOk] at hr
  · refine ⟨⟨_, AList.lookup_insert _, Int.le_refl _⟩, ?_⟩
    rintro n ⟨entry, hentry, hle⟩
    rw [hentry] at hold
    cases hold
    omega
  · simp [isOk] at hr
  · refine ⟨⟨_, AList.lookup_insert _, Int.le_refl _⟩, ?_⟩
    rintro n ⟨entry, hentry, _⟩
    simp [hnone] at hentry

/-- An entry after a critical section was there before, or is the one just recorded. -/
theorem lookup_record (hrec : (r, replay') = recordNonceCount cfg replay key nonceCount expiresAt now)
    {entry : ReplayEntry} (h : replay'.lookup k = some entry) :
    replay.lookup k = some entry ∨ k = key ∧ entry = ⟨nonceCount, expiresAt⟩ := by
  have insert_cases : ∀ {m : Replay}, (m.insert key ⟨nonceCount, expiresAt⟩).lookup k = some entry →
      m.lookup k = some entry ∨ k = key ∧ entry = ⟨nonceCount, expiresAt⟩ := by
    intro m hm
    by_cases hk : k = key
    · subst hk
      rw [AList.lookup_insert] at hm
      exact .inr ⟨rfl, by simpa using hm.symm⟩
    · exact .inl (by rwa [AList.lookup_insert_ne hk] at hm)
  rcases recordNonceCount_cases hrec with ⟨_, _, _, _, rfl⟩ | ⟨_, _, _, _, rfl⟩ |
    ⟨_, _, _, rfl⟩ | ⟨_, _, _, rfl⟩
  · exact .inl h
  · exact insert_cases h
  · exact .inl (lookup_makeRoom.mp h).1
  · exact (insert_cases h).imp_left fun h => (lookup_makeRoom.mp h).1

end Record

theorem acceptedBy_record {now : ℤ} (r : Except AuthError Unit) :
    acceptedBy (.act i ⟨.record key nonceCount expiresAt now, r⟩) =
      if isOk r then some ⟨i, key, nonceCount⟩ else none := by
  cases r <;> simp [acceptedBy, isOk]

/-- A critical section that sweeps no entry by which a call on its way would be rejected leaves each
held count held, unless its nonce has lapsed. -/
theorem ReplayInv.held_or_lapsed {replay' : Replay} {k : ReplayKey} {n now : ℤ}
    (h : ReplayInv cfg P ls sh vs)
    (hrec : (r, replay') = recordNonceCount cfg sh.replay key nonceCount expiresAt now)
    (hnow : now ≤ sh.clock) (hsweep : ∀ w ∈ vs, ∀ c, Pending cfg P w c → ∀ entry,
      Sweeps cfg sh.replay key now c.key entry → entry.maxNonceCount < c.nc)
    (hheld : Held sh.replay k n) : Held replay' k n ∨ Lapsed cfg P sh.clock vs k n := by
  rcases hheld.record hrec with hheld | ⟨entry, hsw, hle⟩
  · exact .inl hheld
  · refine .inr ⟨entry.expiresAt, h.expires _ _ hsw.2.2.1, Int.le_trans hsw.2.2.2 hnow, ?_⟩
    intro w hw c hc hk
    have := hsweep w hw c hc entry (hk ▸ hsw)
    omega

theorem replayInv_record {sh' : AuthShared} {now : ℤ} (h : ReplayInv cfg P ls sh vs)
    (hv : vs[i]? = some v) (hlive : v.live = true)
    (hgood : nextStage cfg P v.ghost (.record key nonceCount expiresAt now) r ≠ .bad)
    (hrec : (r, sh'.replay) = recordNonceCount cfg sh.replay key nonceCount expiresAt now)
    (hclock : sh'.clock = sh.clock) (hsweep : ∀ w ∈ vs, ∀ c, Pending cfg P w c → ∀ entry,
      Sweeps cfg sh.replay key now c.key entry → entry.maxNonceCount < c.nc) (live : Bool) :
    ReplayInv cfg P (ls ++ [.act i ⟨.record key nonceCount expiresAt now, r⟩]) sh'
      (vs.set i (v.next (verifyMonitor cfg P) (.record key nonceCount expiresAt now) r live)) := by
  have hmem := List.mem_of_getElem? hv
  obtain ⟨c, t, hghost, rfl, rfl, hexp, hlt, hnext⟩ := nextStage_record hgood
  have hpending : Pending cfg P v c := ⟨hlive, by rw [hghost], t, _, by rw [hghost, Stage.read],
    hexp, hlt⟩
  have hnow : now ≤ sh.clock := h.second v hmem t now (by rw [hghost])
  set v' := v.next (verifyMonitor cfg P) (.record c.key c.nc expiresAt now) r live with hv'
  have hstage' : v'.ghost.stage = .recorded (isOk r) := hnext
  have hread' : v'.ghost.stage.read = none := by rw [hstage']; rfl
  -- the call itself is no longer on its way
  have hlapsed : ∀ {k n}, Lapsed cfg P sh.clock vs k n →
      Lapsed cfg P sh'.clock (vs.set i v') k n := by
    intro k n hl
    refine hl.mono hclock.ge fun w hw c' hc' _ => ?_
    rcases List.mem_or_eq_of_mem_set hw with hw | rfl
    · exact ⟨w, hw, hc'⟩
    · exact absurd hread' hc'.read_ne_none
  have hcovered : ∀ a ∈ accepted ls, Held sh'.replay a.key a.nonceCount ∨
      Lapsed cfg P sh'.clock (vs.set i v') a.key a.nonceCount := by
    intro a ha
    rcases h.covered a ha with hheld | hl
    · exact (h.held_or_lapsed hrec hnow hsweep hheld).imp_right hlapsed
    · exact .inr (hlapsed hl)
  have hacc := accepted_append ls (.act i ⟨.record c.key c.nc expiresAt now, r⟩)
  rw [acceptedBy_record] at hacc
  refine ⟨?_, ?_, ?_, ?_, ?_, ?_⟩
  · intro w hw t' ht'
    rcases List.mem_or_eq_of_mem_set hw with hw | rfl
    · exact hclock ▸ h.reads w hw t' ht'
    · simp [hread'] at ht'
  · intro w hw t' now' ht'
    rcases List.mem_or_eq_of_mem_set hw with hw | rfl
    · exact hclock ▸ h.second w hw t' now' ht'
    · simp [hstage'] at ht'
  · intro k entry hentry
    rcases lookup_record hrec hentry with hentry | ⟨rfl, rfl⟩
    · exact h.expires k entry hentry
    · exact hexp
  · intro a ha
    rw [hacc] at ha
    split_ifs at ha with hok
    · rcases List.mem_append.mp ha with ha | ha
      · exact hcovered a ha
      · obtain rfl : a = ⟨i, c.key, c.nc⟩ := by simpa using ha
        exact .inl (held_of_record_ok hrec hok).1
    · exact hcovered a (by simpa using ha)
  · intro j w hw hstage
    rw [hacc]
    by_cases hij : i = j
    · subst hij
      obtain rfl : w = v' := by
        rcases List.getElem?_eq_some_iff.mp hv with ⟨hlt, -⟩
        simpa [List.getElem?_set, hlt] using hw.symm
      have hok : isOk r = true := by simpa [hstage'] using hstage
      refine ⟨c, ?_, by simp [hok]⟩
      simp [hv', System.Seen.next, verifyMonitor, hghost]
    · rw [List.getElem?_set_ne hij] at hw
      obtain ⟨c', hc', ha⟩ := h.recorded j w hw hstage
      exact ⟨c', hc', List.mem_append_left _ ha⟩
  · rw [hacc]
    split_ifs with hok
    · refine List.pairwise_append.mpr ⟨h.increasing, by simp, fun a ha b hb hab => ?_⟩
      obtain rfl : b = ⟨i, c.key, c.nc⟩ := by simpa using hb
      -- still held, or else lapsed with this very call on its way
      rcases h.covered a ha with hheld | ⟨_, _, _, hall⟩
      · rw [show a.key = c.key from hab] at hheld
        exact (held_of_record_ok hrec hok).2 _ hheld
      · exact hall v hmem c hpending hab.symm
    · simpa using h.increasing

/-! ### Whole runs -/

theorem ReplayInv.spawn (h : ReplayInv cfg P ls sh vs) (call : VerifyCall) (live : Bool) :
    ReplayInv cfg P (ls ++ [.spawn call]) sh (vs ++ [⟨call, ghost₀ P call, live⟩]) := by
  have hacc : accepted (ls ++ [.spawn call]) = accepted ls := by simp [accepted_append, acceptedBy]
  refine ⟨?_, ?_, h.expires, ?_, ?_, hacc ▸ h.increasing⟩
  · intro w hw t ht
    rcases List.mem_append.mp hw with hw | hw
    · exact h.reads w hw t ht
    · simp [List.mem_singleton.mp hw, ghost₀, Stage.read] at ht
  · intro w hw t now ht
    rcases List.mem_append.mp hw with hw | hw
    · exact h.second w hw t now ht
    · simp [List.mem_singleton.mp hw, ghost₀] at ht
  · intro a ha
    refine (h.covered a (hacc ▸ ha)).imp_right fun hlapsed => ?_
    refine hlapsed.mono (Int.le_refl _) fun w hw c hc _ => ?_
    rcases List.mem_append.mp hw with hw | hw
    · exact ⟨w, hw, hc⟩
    · exact absurd (by simp [List.mem_singleton.mp hw, ghost₀, Stage.read]) hc.read_ne_none
  · intro j w hw hstage
    rw [hacc]
    rcases Nat.lt_or_ge j vs.length with hlt | hge
    · exact h.recorded j w (by rwa [List.getElem?_append_left hlt] at hw) hstage
    · rw [List.getElem?_append_right hge] at hw
      simp [List.mem_singleton.mp (List.mem_of_getElem? hw), ghost₀] at hstage

theorem ReplayInv.tick (h : ReplayInv cfg P ls sh vs) (d : ℕ) :
    ReplayInv cfg P (ls ++ [.env d]) { sh with clock := sh.clock + d } vs := by
  have hacc : accepted (ls ++ [.env d]) = accepted ls := by simp [accepted_append, acceptedBy]
  refine ⟨?_, ?_, h.expires, ?_, hacc ▸ h.recorded, hacc ▸ h.increasing⟩
  · intro w hw t ht
    have := h.reads w hw t ht
    dsimp only
    omega
  · intro w hw t now ht
    have := h.second w hw t now ht
    dsimp only
    omega
  · intro a ha
    refine (h.covered a (hacc ▸ ha)).imp_right fun hlapsed => ?_
    exact hlapsed.mono (by dsimp only; omega) fun w hw _ hc _ => ⟨w, hw, hc⟩

theorem run_credentials (g : Ghost) (t : List (Event authSig)) :
    ((verifyMonitor cfg P).run g t).credentials = g.credentials := by
  induction t generalizing g with
  | nil => rfl
  | cons ev t ih => rw [Monitor.run_cons, ih]; rfl

variable {st : AuthState}

theorem NoLiveSweep.pending {now : ℤ}
    (hC : NoLiveSweep cfg P st (.act i ⟨.record key nonceCount expiresAt now, r⟩)) :
    ∀ w ∈ System.view (verifyMonitor cfg P) (ghost₀ P) st, ∀ c, Pending cfg P w c → ∀ entry,
      Sweeps cfg st.shared.replay key now c.key entry → entry.maxNonceCount < c.nc := by
  intro w hw c hc
  obtain ⟨th, hth, rfl⟩ := List.mem_map.mp hw
  refine hC th hth ⟨fun hpast => hc.read_ne_none ?_, hc.1⟩ c ?_
  · simp [System.see, hpast, ghost₀, Stage.read]
  · have := hc.2.1
    rwa [System.see, run_credentials] at this

theorem replayInv_of_reachesUnder {t : ℤ}
    (h : (authSystem cfg P).ReachesUnder (NoLiveSweep cfg P) (initialAuth t) ls st) :
    System.Tracked (verifyMonitor cfg P) (ghost₀ P) (Verdict cfg) st ∧
      ReplayInv cfg P ls st.shared (System.view (verifyMonitor cfg P) (ghost₀ P) st) := by
  refine System.invariant (verify_safe cfg P) (fun _ _ _ _ _ _ => trivial) ?_ ?_ ?_ h ?_
  · intro ls st call live hI _
    exact hI.spawn call live
  · intro ls st i th e r sh live _ hI hC hget hlive hgood hperf
    have hv : (System.view (verifyMonitor cfg P) (ghost₀ P) st)[i]? = some _ :=
      System.view_getElem? hget
    have hmem := List.mem_of_getElem? hv
    cases e with
    | now =>
      obtain ⟨rfl, rfl⟩ := hperf
      exact replayInv_now hI hmem hlive hgood live
    | random =>
      refine absurd ?_ hgood
      simp [verifyMonitor, nextStage]
    | lookupCredential realm username =>
      obtain rfl := hperf
      exact replayInv_lookup hI hmem hlive r hgood live
    | record =>
      exact replayInv_record hI hv hlive hgood hperf.1 hperf.2 hC.pending live
  · rintro ls st d _ hI rfl
    exact hI.tick d
  · constructor <;> simp [initialAuth, accepted, Increasing]

/-- In every run in which no sweep deletes an entry that a call in flight would be rejected by, the
counts accepted for a nonce and user grow in the order of the critical sections, and every call that
returns a credential has its critical section among them. -/
theorem accepted_increasing_of_no_live_sweep (cfg : Config) (P : Primitives) (t : ℤ)
    (ls : List AuthLabel) (st : AuthState)
    (h : (authSystem cfg P).ReachesUnder (NoLiveSweep cfg P) (initialAuth t) ls st) :
    Increasing (accepted ls) ∧ ∀ i th credential, st.threads[i]? = some th →
      th.rest = .pure (.ok credential) →
      ∃ c, P.parseCredentials th.arg.authorization = some c ∧ credential.username = c.username ∧
        ⟨i, ⟨c.nonce, c.username⟩, c.nc⟩ ∈ accepted ls := by
  obtain ⟨htracked, hI⟩ := replayInv_of_reachesUnder h
  refine ⟨hI.increasing, fun i th credential hget hrest => ?_⟩
  have hverdict := htracked th (List.mem_of_getElem? hget)
  rw [hrest, Prog.pure_eq, safe_pure] at hverdict
  obtain ⟨-, c, hc, hname⟩ := hverdict.2 credential rfl
  obtain ⟨c', hc', hacc⟩ := hI.recorded i _ (System.view_getElem? hget) (hverdict.1.mp rfl)
  cases hc.symm.trans hc'
  rw [System.see, run_credentials] at hc
  exact ⟨c, hc, hname, hacc⟩

/-! ### A run that accepts one request twice -/

section Run

/-- A map of one entry, nonces of ten seconds. -/
def smallConfig : Config := ⟨"pbx", List.replicate 32 0, 10 * Time.second, 1⟩

/-- The nonce `"n0"` was issued at second 0, the nonce `"n5"` at second 5; Alice's requests are for the
first one, with counts from 1 on, and Bob's is for the second one. -/
def smallPrimitives : Primitives where
  parseCredentials
    | "alice" => some ⟨"alice", "pbx", "n0", "sip:pbx", "", "MD5", "c", "auth", 1⟩
    | "alice 2" => some ⟨"alice", "pbx", "n0", "sip:pbx", "", "MD5", "c", "auth", 2⟩
    | "alice 3" => some ⟨"alice", "pbx", "n0", "sip:pbx", "", "MD5", "c", "auth", 3⟩
    | "bob" => some ⟨"bob", "pbx", "n5", "sip:pbx", "", "MD5", "c", "auth", 1⟩
    | _ => none
  digest _ := some ""
  hmac _ _ := List.replicate 32 0
  encodeBase64 _ := ""
  decodeBase64
    | "n0" => some (List.replicate 56 0)
    | "n5" => some (List.replicate 7 0 ++ 5 :: List.replicate 48 0)
    | _ => none
  challenge _ := ""

def register (authorization : String) : VerifyCall := ⟨"REGISTER", "sip:pbx", authorization⟩

def answerAuth (sh : AuthShared) : (e : AuthOp) → authSig.Ans e × AuthShared
  | .now => (sh.clock, sh)
  | .random => (none, sh)
  | .lookupCredential realm username =>
    (some ⟨"tenant", username, realm, "0123456789abcdef0123456789abcdef", 1⟩, sh)
  | .record key nonceCount expiresAt now =>
    let res := recordNonceCount smallConfig sh.replay key nonceCount expiresAt now
    (res.1, { sh with replay := res.2 })

def runAuth (moves : List (System.Move VerifyCall ℕ)) : List (AuthState × AuthLabel) × AuthState :=
  (authSystem smallConfig smallPrimitives).exec (fun sh _ e => answerAuth sh e)
    (fun sh d => { sh with clock := sh.clock + d }) moves ⟨initialAuth 0, []⟩

theorem performAuth_answerAuth (sh : AuthShared) (e : AuthOp) :
    performAuth smallConfig sh e (answerAuth sh e).1 (answerAuth sh e).2 := by
  cases e <;> simp [performAuth, answerAuth]

/-- Whether a step sweeps no entry by which a call that has not returned would be rejected. -/
def sparesLive (p : AuthState × AuthLabel) : Bool :=
  match p.2 with
  | .act _ ⟨.record _ _ _ now, _⟩ => p.1.threads.all fun th =>
    (smallPrimitives.parseCredentials th.arg.authorization).all fun c =>
      (p.1.shared.replay.lookup c.key).all fun entry =>
        !th.live || p.1.shared.replay.size < smallConfig.maxReplayEntries || now < entry.expiresAt ||
          entry.maxNonceCount < c.nc
  | _ => true

theorem noLiveSweep_of_sparesLive (h : sparesLive (st, l) = true) :
    NoLiveSweep smallConfig smallPrimitives st l := by
  unfold NoLiveSweep
  split
  · rintro th hth ⟨-, hlive⟩ c hc entry ⟨-, hfull, hentry, hexpired⟩
    have hthread := List.all_eq_true.mp h th hth
    rw [hc, Option.all_some, hentry, Option.all_some, hlive] at hthread
    simp only [Bool.not_true, Bool.false_or, Bool.or_eq_true, decide_eq_true_eq] at hthread
    omega
  · trivial

/-- Alice's first two requests run side by side and the third one passes `validateNonce`; the nonce
expires and Bob registers, which sweeps her entry; Bob's nonce expires; her third request goes on, which
sweeps his. -/
def aliceSchedule : List (System.Move VerifyCall ℕ) :=
  [.spawn (register "alice"), .spawn (register "alice 2"), .spawn (register "alice 3"),
    .run 0, .run 1, .run 2, .run 1, .run 0, .run 0, .run 1, .run 0, .run 1,
    .env 10000000000, .spawn (register "bob"), .run 3, .run 3, .run 3, .run 3,
    .env 5000000000, .run 2, .run 2, .run 2]

/-- Alice registers; her request is sent again and passes `validateNonce`; the nonce expires and Bob
registers, which sweeps her entry; Bob's nonce expires; the second request goes on. -/
def replaySchedule : List (System.Move VerifyCall ℕ) :=
  [.spawn (register "alice"), .run 0, .run 0, .run 0, .run 0,
    .spawn (register "alice"), .run 1,
    .env 10000000000, .spawn (register "bob"), .run 2, .run 2, .run 2, .run 2,
    .env 5000000000, .run 1, .run 1, .run 1]

theorem accepted_increasing_alice :
    accepted (System.labels (runAuth aliceSchedule)) =
      [⟨0, ⟨"n0", "alice"⟩, 1⟩, ⟨1, ⟨"n0", "alice"⟩, 2⟩, ⟨3, ⟨"n5", "bob"⟩, 1⟩,
        ⟨2, ⟨"n0", "alice"⟩, 3⟩] ∧
    (runAuth aliceSchedule).2.shared.replay.lookup ⟨"n5", "bob"⟩ = none ∧
    Increasing (accepted (System.labels (runAuth aliceSchedule))) ∧
    ∃ th credential, (runAuth aliceSchedule).2.threads[2]? = some th ∧
      th.rest = .pure (.ok credential) ∧
      ⟨2, ⟨"n0", "alice"⟩, 3⟩ ∈ accepted (System.labels (runAuth aliceSchedule)) := by
  have hspares : (runAuth aliceSchedule).1.all sparesLive = true := by decide +kernel
  obtain ⟨hincreasing, hreturned⟩ := accepted_increasing_of_no_live_sweep _ _ 0 _ _
    (System.exec_steps (fun sh _ e => performAuth_answerAuth sh e) (fun _ _ => rfl) aliceSchedule _
      fun p hp => ⟨fun _ _ => trivial, noLiveSweep_of_sparesLive (List.all_eq_true.mp hspares p hp)⟩)
  refine ⟨by decide +kernel, by decide +kernel, hincreasing, _, _, rfl, rfl, ?_⟩
  obtain ⟨c, hc, -, hmem⟩ := hreturned 2 _ _ rfl rfl
  cases hc
  exact hmem

/-- The nonce count 1 of Alice's nonce is accepted twice. -/
theorem replay_accepted_twice : ∃ cfg P t ls st,
    new cfg = .ok ∅ ∧ (authSystem cfg P).Reaches (initialAuth t) ls st ∧
      accepted ls = [⟨0, ⟨"n0", "alice"⟩, 1⟩, ⟨2, ⟨"n5", "bob"⟩, 1⟩,
        ⟨1, ⟨"n0", "alice"⟩, 1⟩] ∧
      (∃ th cred, st.threads[1]? = some th ∧ th.rest = .pure (.ok cred) ∧ cred.username = "alice") ∧
      ¬ Increasing (accepted ls) := by
  have hacc : accepted (System.labels (runAuth replaySchedule)) =
      [⟨0, ⟨"n0", "alice"⟩, 1⟩, ⟨2, ⟨"n5", "bob"⟩, 1⟩, ⟨1, ⟨"n0", "alice"⟩, 1⟩] := by
    decide +kernel
  refine ⟨smallConfig, smallPrimitives, 0, System.labels (runAuth replaySchedule),
    (runAuth replaySchedule).2, rfl, System.exec_reaches
    (fun sh _ e => performAuth_answerAuth sh e) (fun _ _ => rfl) replaySchedule _
    (fun _ _ _ _ => trivial), hacc, ⟨_, _, rfl, rfl, rfl⟩, ?_⟩
  rw [hacc]
  simp [Increasing]

end Run

end AixvolinkPbx.Auth

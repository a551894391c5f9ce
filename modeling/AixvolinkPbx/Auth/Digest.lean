import AixvolinkPbx.Base
import AixvolinkPbx.Lib.Interleave
import AixvolinkPbx.Lib.Table
import AixvolinkPbx.Lib.Text

/-!
# Digest authentication (`internal/sip/auth/digest.go`)

`Authenticator.Verify` as a program: its clock readings, the credential lookup and the critical
section of `recordNonceCount` are its operations, everything between them is local to the call. The
critical section itself is the function `recordNonceCount` on the replay map.

What the package takes from elsewhere is a parameter (`Primitives`): the parser of the Authorization
header and the response digest of the digest package, the HMAC and the base64 decoder.
-/

namespace AixvolinkPbx.Auth

/-- The errors of the package; joined errors keep the one that `errors.Is` finds. -/
inductive AuthError
  | missingCredentials
  | invalidCredentials
  | staleNonce
  | replay
  | replayCapacity
  deriving DecidableEq, Repr

structure Credential where
  tenantID : String
  username : String
  realm : String
  ha1 : String
  maxBindings : ℤ
  deriving DecidableEq, Repr

structure Config where
  realm : String
  nonceSecret : List UInt8
  nonceTTL : ℤ
  maxReplayEntries : ℤ

/-- The fields of `digest.Credentials` that are read. -/
structure Credentials where
  username : String
  realm : String
  nonce : String
  uri : String
  response : String
  algorithm : String
  cnonce : String
  qop : String
  nc : ℤ
  deriving DecidableEq

/-- The arguments of `digest.Digest` that vary: challenge nonce and options. -/
structure DigestInput where
  realm : String
  nonce : String
  method : String
  uri : String
  username : String
  a1 : String
  count : ℤ
  cnonce : String

/-- The fields of `digest.Challenge` that vary. -/
structure ChallengeInput where
  realm : String
  nonce : String
  stale : Bool

/-- What the package uses of other packages. -/
structure Primitives where
  parseCredentials : String → Option Credentials
  digest : DigestInput → Option String
  hmac : List UInt8 → List UInt8 → List UInt8
  encodeBase64 : List UInt8 → String
  decodeBase64 : String → Option (List UInt8)
  challenge : ChallengeInput → String

structure ReplayKey where
  nonce : String
  username : String
  deriving DecidableEq, Repr

structure ReplayEntry where
  maxNonceCount : ℤ
  expiresAt : ℤ
  deriving DecidableEq, Repr

abbrev Replay := Table ReplayKey ReplayEntry

/-! ## Construction -/

inductive NewError
  | realmRequired
  | nonceSecretTooShort
  | nonceTTLNotPositive
  | maxReplayEntriesNotPositive
  deriving DecidableEq

/-- The checks of `New` on its configuration, in their order. -/
def new (cfg : Config) : Except NewError Replay :=
  if cfg.realm = "" then .error .realmRequired
  else if cfg.nonceSecret.length < 32 then .error .nonceSecretTooShort
  else if cfg.nonceTTL ≤ 0 then .error .nonceTTLNotPositive
  else if cfg.maxReplayEntries ≤ 0 then .error .maxReplayEntriesNotPositive
  else .ok ∅

/-! ## The critical section of `recordNonceCount` -/

/-- Delete the entries that do not expire after `now`. -/
def sweep (now : ℤ) (replay : Replay) : Replay :=
  replay.deleteIf fun _ entry => !decide (now < entry.expiresAt)

/-- The map a new key finds: swept if it was full. -/
def makeRoom (cfg : Config) (now : ℤ) (replay : Replay) : Replay :=
  if cfg.maxReplayEntries ≤ replay.size then sweep now replay else replay

/-- `recordNonceCount` once it holds the mutex; `now` was read before. -/
def recordNonceCount (cfg : Config) (replay : Replay) (key : ReplayKey) (nonceCount : ℤ)
    (expiresAt now : ℤ) : Except AuthError Unit × Replay :=
  match replay.lookup key with
  | some entry =>
    if nonceCount ≤ entry.maxNonceCount then (.error .replay, replay)
    else (.ok (), replay.insert key ⟨nonceCount, expiresAt⟩)
  | none =>
    let room := makeRoom cfg now replay
    if cfg.maxReplayEntries ≤ room.size then (.error .replayCapacity, room)
    else (.ok (), room.insert key ⟨nonceCount, expiresAt⟩)

theorem lookup_makeRoom {cfg : Config} {now : ℤ} {replay : Replay} {key : ReplayKey}
    {entry : ReplayEntry} : (makeRoom cfg now replay).lookup key = some entry ↔
      replay.lookup key = some entry ∧
        ¬ (cfg.maxReplayEntries ≤ replay.size ∧ entry.expiresAt ≤ now) := by
  unfold makeRoom sweep
  split_ifs with h
  · simp [Table.lookup_deleteIf_eq_some, h]
  · simp [h]

theorem recordNonceCount_cases {cfg : Config} {replay replay' : Replay} {key : ReplayKey}
    {nonceCount expiresAt now : ℤ} {r : Except AuthError Unit}
    (h : (r, replay') = recordNonceCount cfg replay key nonceCount expiresAt now) :
    (∃ entry, replay.lookup key = some entry ∧ nonceCount ≤ entry.maxNonceCount ∧
        r = .error .replay ∧ replay' = replay) ∨
      (∃ entry, replay.lookup key = some entry ∧ entry.maxNonceCount < nonceCount ∧
        r = .ok () ∧ replay' = replay.insert key ⟨nonceCount, expiresAt⟩) ∨
      (replay.lookup key = none ∧ cfg.maxReplayEntries ≤ (makeRoom cfg now replay).size ∧
        r = .error .replayCapacity ∧ replay' = makeRoom cfg now replay) ∨
      (replay.lookup key = none ∧ (makeRoom cfg now replay).size < cfg.maxReplayEntries ∧
        r = .ok () ∧ replay' = (makeRoom cfg now replay).insert key ⟨nonceCount, expiresAt⟩) := by
  unfold recordNonceCount at h
  split at h
  · next entry hentry =>
    split_ifs at h with hle
    · obtain ⟨rfl, rfl⟩ := Prod.mk.inj h
      exact .inl ⟨entry, hentry, hle, rfl, rfl⟩
    · obtain ⟨rfl, rfl⟩ := Prod.mk.inj h
      exact .inr (.inl ⟨entry, hentry, by omega, rfl, rfl⟩)
  · next hnone =>
    dsimp only at h
    split_ifs at h with hfull
    · obtain ⟨rfl, rfl⟩ := Prod.mk.inj h
      exact .inr (.inr (.inl ⟨hnone, hfull, rfl, rfl⟩))
    · obtain ⟨rfl, rfl⟩ := Prod.mk.inj h
      exact .inr (.inr (.inr ⟨hnone, not_le.mp hfull, rfl, rfl⟩))

/-! ## Verify -/

inductive AuthOp
  | now
  | random
  | lookupCredential (realm username : String)
  | record (key : ReplayKey) (nonceCount : ℤ) (expiresAt now : ℤ)

abbrev authSig : Sig where
  Op := AuthOp
  Ans
    | .now => ℤ
    | .random => Option (List UInt8)
    | .lookupCredential _ _ => Option Credential
    | .record .. => Except AuthError Unit

def now : Prog authSig ℤ := .call (S := authSig) .now

/-- The random bytes of a nonce; `none` is an error of the source of randomness. -/
def random : Prog authSig (Option (List UInt8)) := .call (S := authSig) .random

/-- `none` is an error of the store. -/
def lookupCredential (realm username : String) : Prog authSig (Option Credential) :=
  .call (S := authSig) (.lookupCredential realm username)

def record (key : ReplayKey) (nonceCount : ℤ) (expiresAt now : ℤ) :
    Prog authSig (Except AuthError Unit) :=
  .call (S := authSig) (.record key nonceCount expiresAt now)

def nonceTimeBytes : ℕ := 8
def nonceRandomBytes : ℕ := 16
def nonceMACBytes : ℕ := 32
def md5Size : ℕ := 16

def bigEndian (bytes : List UInt8) : ℕ := bytes.foldl (fun n b => n * 256 + b.toNat) 0

def issuedAt (message : List UInt8) : ℤ :=
  Time.unix (int64OfUint64 (bigEndian (message.take nonceTimeBytes)))

/-- The local part of `validateNonce`: the message of a nonce that decodes and carries its MAC. -/
def nonceMessage (cfg : Config) (P : Primitives) (encoded : String) : Option (List UInt8) :=
  match P.decodeBase64 encoded with
  | none => none
  | some payload =>
    if payload.length ≠ nonceTimeBytes + nonceRandomBytes + nonceMACBytes then none
    else if payload.drop (nonceTimeBytes + nonceRandomBytes) ≠
        P.hmac cfg.nonceSecret (payload.take (nonceTimeBytes + nonceRandomBytes)) then none
    else some (payload.take (nonceTimeBytes + nonceRandomBytes))

/-- `validateNonce`: the expiry, and the error if there is one. -/
def validateNonce (cfg : Config) (P : Primitives) (encoded : String) :
    Prog authSig (ℤ × Option AuthError) :=
  match nonceMessage cfg P encoded with
  | none => pure (Time.zero, some .invalidCredentials)
  | some message => do
    let now ← now
    if now + Time.minute < issuedAt message then
      return (Time.zero, some .invalidCredentials)
    else
      let expiresAt := issuedAt message + cfg.nonceTTL
      if expiresAt ≤ now then return (expiresAt, some .staleNonce)
      else return (expiresAt, none)

def putBigEndian (value : ℕ) : List UInt8 :=
  (List.range nonceTimeBytes).reverse.map fun i => UInt8.ofNat (value / 256 ^ i)

/-- `issueNonce`: the clock in whole seconds, random bytes, and the MAC of both. -/
def issueNonce (cfg : Config) (P : Primitives) : Prog authSig (Option String) := do
  let now ← now
  let some bytes ← random
    | return none
  let payload := putBigEndian ((now / Time.second) % 2 ^ 64).toNat ++ bytes
  return some (P.encodeBase64 (payload ++ P.hmac cfg.nonceSecret payload))

/-- `Challenge`: a fresh WWW-Authenticate value. -/
def challenge (cfg : Config) (P : Primitives) (stale : Bool) : Prog authSig (Option String) := do
  let some nonce ← issueNonce cfg P
    | return none
  return some (P.challenge ⟨cfg.realm, nonce, stale⟩)

/-- The checks of `Verify` on the parsed header. -/
def acceptable (cfg : Config) (requestURI : String) (credentials : Credentials) : Bool :=
  credentials.realm = cfg.realm && credentials.uri = requestURI &&
    Text.toLower credentials.algorithm = "md5" && credentials.qop = "auth" &&
    credentials.cnonce ≠ "" && 0 < credentials.nc

def responseMatches (cfg : Config) (P : Primitives) (method requestURI : String)
    (credentials : Credentials) (credential : Credential) : Bool :=
  match P.digest ⟨cfg.realm, credentials.nonce, method, requestURI, credentials.username,
      credential.ha1, credentials.nc, credentials.cnonce⟩ with
  | none => false
  | some expected => Text.toLower credentials.response = Text.toLower expected

structure VerifyCall where
  method : String
  requestURI : String
  authorization : String

def verify (cfg : Config) (P : Primitives) (call : VerifyCall) :
    Prog authSig (Except AuthError Credential) := do
  if call.authorization = "" then return .error .missingCredentials
  else
    let some credentials := P.parseCredentials call.authorization
      | return .error .invalidCredentials
    if !acceptable cfg call.requestURI credentials then return .error .invalidCredentials
    else
      match ← validateNonce cfg P credentials.nonce with
      | (_, some err) => return .error err
      | (expiresAt, none) =>
        let some credential ← lookupCredential credentials.realm credentials.username
          | return .error .invalidCredentials
        if credential.realm ≠ credentials.realm ∨ credential.username ≠ credentials.username ∨
            credential.ha1.utf8ByteSize ≠ md5Size * 2 then return .error .invalidCredentials
        else if !responseMatches cfg P call.method call.requestURI credentials credential then
          return .error .invalidCredentials
        else
          let now ← now
          match ← record ⟨credentials.nonce, credentials.username⟩ credentials.nc expiresAt now with
          | .error err => return .error err
          | .ok () => return .ok credential

end AixvolinkPbx.Auth

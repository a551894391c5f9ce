import AixvolinkPbx.Auth.Digest
import Mathlib.Tactic.Ring

/-!
# Issuing and validating nonces (`internal/sip/auth/digest.go`)

A nonce carries its issue time in whole seconds, random bytes and a MAC of both. `issueNonce` writes
the bytes that `validateNonce` reads: the big-endian seconds survive the conversions between signed and
unsigned 64-bit integers (`issuedAt_payload`), and the message is found before its MAC
(`nonceMessage_encoded`). So a nonce is valid from its issue on until `NonceTTL` after the second it was
issued in.
-/

namespace AixvolinkPbx.Auth

open Prog (Returns)

/-! ## The bytes of a nonce -/

theorem foldl_bigEndian (value n acc : ℕ) :
    ((List.range n).reverse.map fun i => UInt8.ofNat (value / 256 ^ i)).foldl
      (fun a b => a * 256 + b.toNat) acc = acc * 256 ^ n + value % 256 ^ n := by
  induction n generalizing acc with
  | zero => simp [Nat.mod_one]
  | succ n ih =>
    have hbyte : (UInt8.ofNat (value / 256 ^ n)).toNat = value / 256 ^ n % 256 := UInt8.toNat_ofNat'
    rw [List.range_succ, List.reverse_append, List.reverse_singleton, List.singleton_append,
      List.map_cons, List.foldl_cons, ih, hbyte, Nat.mod_pow_succ]
    generalize value / 256 ^ n % 256 = byte
    ring

theorem bigEndian_putBigEndian {value : ℕ} (h : value < 2 ^ 64) :
    bigEndian (putBigEndian value) = value := by
  have hread : bigEndian (putBigEndian value) = 0 * 256 ^ nonceTimeBytes + value % 256 ^ nonceTimeBytes :=
    foldl_bigEndian value nonceTimeBytes 0
  rw [hread, zero_mul, zero_add]
  exact Nat.mod_eq_of_lt h

theorem length_putBigEndian (value : ℕ) : (putBigEndian value).length = nonceTimeBytes := by
  simp [putBigEndian]

def payloadAt (t : ℤ) (bytes : List UInt8) : List UInt8 :=
  putBigEndian ((t / Time.second) % 2 ^ 64).toNat ++ bytes

/-- The seconds of an instant since 1970 come back from the bytes. -/
theorem issuedAt_payload {t : ℤ} (ht : 0 ≤ t) (hrange : t / Time.second < 2 ^ 63)
    (bytes : List UInt8) : issuedAt (payloadAt t bytes) = t / Time.second * Time.second := by
  have hseconds : 0 ≤ t / Time.second := Int.ediv_nonneg ht (by decide)
  unfold payloadAt
  generalize t / Time.second = seconds at hrange hseconds ⊢
  have hmod : seconds % 2 ^ 64 = seconds := by omega
  have htake : (putBigEndian seconds.toNat ++ bytes).take nonceTimeBytes =
      putBigEndian seconds.toNat := by
    rw [← length_putBigEndian seconds.toNat]
    exact List.take_left
  have hsigned : int64OfUint64 seconds.toNat = seconds := by
    unfold int64OfUint64
    rw [Int.toNat_of_nonneg hseconds]
    have hlow : -((2 ^ 64 : ℕ) : ℤ) ≤ seconds * 2 := by omega
    have hhigh : seconds * 2 < ((2 ^ 64 : ℕ) : ℤ) := by omega
    exact Int.bmod_eq_of_le_mul_two hlow hhigh
  have hlt : seconds.toNat < 2 ^ 64 := by omega
  rw [hmod, issuedAt, htake, bigEndian_putBigEndian hlt, hsigned, Time.unix]

section Nonces

variable {cfg : Config} {P : Primitives} {message : List UInt8}

theorem nonceMessage_encoded
    (hmac : ∀ secret message, (P.hmac secret message).length = nonceMACBytes)
    (hbase64 : ∀ bytes, P.decodeBase64 (P.encodeBase64 bytes) = some bytes)
    (hlength : message.length = nonceTimeBytes + nonceRandomBytes) :
    nonceMessage cfg P (P.encodeBase64 (message ++ P.hmac cfg.nonceSecret message)) = some message := by
  have htake : (message ++ P.hmac cfg.nonceSecret message).take (nonceTimeBytes + nonceRandomBytes) =
      message := by
    rw [← hlength]
    exact List.take_left
  have hdrop : (message ++ P.hmac cfg.nonceSecret message).drop (nonceTimeBytes + nonceRandomBytes) =
      P.hmac cfg.nonceSecret message := by
    rw [← hlength]
    exact List.drop_left
  unfold nonceMessage
  rw [hbase64]
  dsimp only
  rw [htake, hdrop, if_neg (by simp [hlength, hmac]), if_neg (by simp)]

variable {encoded : String}

theorem payload_of_nonceMessage (h : nonceMessage cfg P encoded = some message) :
    ∃ payload, P.decodeBase64 encoded = some payload ∧
      payload.length = 56 ∧ payload.drop 24 = P.hmac cfg.nonceSecret (payload.take 24) := by
  unfold nonceMessage at h
  split at h
  · cases h
  · next payload hpayload =>
    split_ifs at h with hlength hmac
    exact ⟨payload, hpayload, not_not.mp hlength, not_not.mp hmac⟩

/-! ## Issue and validation -/

/-- What `validateNonce` answers on a message at the clock reading `now`. -/
def verdict (cfg : Config) (message : List UInt8) (now : ℤ) : ℤ × Option AuthError :=
  if now + Time.minute < issuedAt message then (Time.zero, some .invalidCredentials)
  else if issuedAt message + cfg.nonceTTL ≤ now then
    (issuedAt message + cfg.nonceTTL, some .staleNonce)
  else (issuedAt message + cfg.nonceTTL, none)

theorem validateNonce_eq (h : nonceMessage cfg P encoded = some message) :
    validateNonce cfg P encoded = now >>= fun now => pure (verdict cfg message now) := by
  unfold validateNonce
  rw [h]
  refine bind_congr fun now => ?_
  unfold verdict
  dsimp only
  split_ifs
  · rfl
  · rfl
  · rfl

theorem returns_validateNonce (h : nonceMessage cfg P encoded = some message) {t : ℤ}
    {res : ℤ × Option AuthError} :
    Returns (validateNonce cfg P encoded) [⟨.now, t⟩] res ↔ res = verdict cfg message t := by
  rw [validateNonce_eq h, now, Prog.returns_call_pure]
  constructor
  · rintro ⟨now, hevents, hres⟩
    cases hevents
    exact hres
  · intro hres
    exact ⟨t, rfl, hres⟩

theorem issueNonce_eq : issueNonce cfg P = now >>= fun t => random >>= fun read =>
    pure (read.map fun bytes =>
      P.encodeBase64 (payloadAt t bytes ++ P.hmac cfg.nonceSecret (payloadAt t bytes))) := by
  unfold issueNonce
  refine bind_congr fun t => bind_congr fun read => ?_
  cases read with
  | none => rfl
  | some bytes => rfl

theorem eq_of_returns_issueNonce {t : ℤ} {bytes : List UInt8} {nonce : String}
    (h : Returns (issueNonce cfg P) [⟨.now, t⟩, ⟨.random, some bytes⟩] (some nonce)) :
    nonce = P.encodeBase64 (payloadAt t bytes ++ P.hmac cfg.nonceSecret (payloadAt t bytes)) := by
  rw [issueNonce_eq] at h
  obtain ⟨now, u, v, hevents, hnow, hrest⟩ := Prog.returns_bind h
  obtain rfl := Prog.returns_call hnow
  obtain ⟨read, rfl, hnonce⟩ := Prog.returns_call_pure.mp hrest
  cases hevents
  exact Option.some.inj hnonce

/-- A string that is accepted or reported stale is a message with its MAC. -/
theorem payload_of_validateNonce {events : List (Event authSig)} {res : ℤ × Option AuthError}
    (h : Returns (validateNonce cfg P encoded) events res)
    (hres : res.2 = none ∨ res.2 = some .staleNonce) :
    ∃ payload, P.decodeBase64 encoded = some payload ∧
      payload.length = 56 ∧ payload.drop 24 = P.hmac cfg.nonceSecret (payload.take 24) := by
  cases hmessage : nonceMessage cfg P encoded with
  | none =>
    unfold validateNonce at h
    rw [hmessage] at h
    obtain ⟨-, rfl⟩ := Prog.returns_pure.mp h
    simp at hres
  | some message => exact payload_of_nonceMessage hmessage

/-- **Nonces.** Of a nonce issued at `t` and validated at `t'` under the same secret, the expiry is
`NonceTTL` after the second it was issued in, and it is stale from then on: always `NonceTTL` after `t`,
never a second before that. And every string that is accepted or stale has 56 bytes, the last 32 of them
the MAC of the first 24. The Unix seconds of an instant are 64-bit. -/
theorem nonce_validated (hmac : ∀ secret message, (P.hmac secret message).length = 32)
    (hbase64 : ∀ bytes, P.decodeBase64 (P.encodeBase64 bytes) = some bytes)
    {t t' : ℤ} (ht : 0 ≤ t) (hrange : t / Time.second < 2 ^ 63) (hle : t ≤ t') {bytes : List UInt8}
    (hbytes : bytes.length = 16) {nonce : String}
    (hissue : Returns (issueNonce cfg P) [⟨.now, t⟩, ⟨.random, some bytes⟩] (some nonce)) :
    (∀ res, Returns (validateNonce cfg P nonce) [⟨.now, t'⟩] res ↔
      res = (t / Time.second * Time.second + cfg.nonceTTL,
        if t' < t / Time.second * Time.second + cfg.nonceTTL then none else some .staleNonce)) ∧
    (∀ res, Returns (validateNonce cfg P nonce) [⟨.now, t'⟩] res →
      (t + cfg.nonceTTL ≤ t' → res.2 = some .staleNonce) ∧
        (t' ≤ t + cfg.nonceTTL - Time.second → res.2 = none)) ∧
    ∀ encoded events res, Returns (validateNonce cfg P encoded) events res →
      res.2 = none ∨ res.2 = some .staleNonce → ∃ payload, P.decodeBase64 encoded = some payload ∧
        payload.length = 56 ∧ payload.drop 24 = P.hmac cfg.nonceSecret (payload.take 24) := by
  have hmessage : nonceMessage cfg P nonce = some (payloadAt t bytes) := by
    rw [eq_of_returns_issueNonce hissue]
    refine nonceMessage_encoded hmac hbase64 ?_
    rw [payloadAt, List.length_append, length_putBigEndian, hbytes]
    rfl
  have hissued := issuedAt_payload ht hrange bytes
  have hfloor : t / Time.second * Time.second ≤ t := Int.ediv_mul_le t (by decide)
  have hnext : t < t / Time.second * Time.second + Time.second := by
    have := Int.lt_ediv_add_one_mul_self t (show 0 < Time.second by decide)
    rwa [Int.add_mul, Int.one_mul] at this
  have hminute : 0 < Time.minute := by decide
  have hverdict : verdict cfg (payloadAt t bytes) t' =
      (t / Time.second * Time.second + cfg.nonceTTL,
        if t' < t / Time.second * Time.second + cfg.nonceTTL then none else some .staleNonce) := by
    rw [verdict, hissued]
    generalize t / Time.second * Time.second = issued at hfloor hnext ⊢
    -- the nonce is not from the future
    rw [if_neg (by omega)]
    split_ifs with hstale hlt hlt
    · omega
    · rfl
    · rfl
    · omega
  have hreturns : ∀ res, Returns (validateNonce cfg P nonce) [⟨.now, t'⟩] res ↔
      res = (t / Time.second * Time.second + cfg.nonceTTL,
        if t' < t / Time.second * Time.second + cfg.nonceTTL then none else some .staleNonce) := by
    intro res
    rw [returns_validateNonce hmessage, hverdict]
  refine ⟨hreturns, fun res hres => ?_, fun encoded events res => payload_of_validateNonce⟩
  rw [(hreturns res).mp hres]
  generalize t / Time.second * Time.second = issued at hfloor hnext ⊢
  constructor
  · intro hlate
    exact if_neg (by omega)
  · intro hearly
    exact if_pos (by omega)

end Nonces

/-- A MAC of the right length, and an encoding of bytes as the characters with their codes. -/
def plainPrimitives : Primitives where
  parseCredentials _ := none
  digest _ := none
  hmac _ message := (message ++ List.replicate 32 0).take 32
  encodeBase64 bytes := String.ofList (bytes.map fun b => Char.ofNat b.toNat)
  decodeBase64 text := some (text.toList.map fun c => UInt8.ofNat c.toNat)
  challenge input := input.nonce

theorem decodeBase64_plainPrimitives (bytes : List UInt8) :
    plainPrimitives.decodeBase64 (plainPrimitives.encodeBase64 bytes) = some bytes := by
  have hbyte : ∀ b : UInt8, UInt8.ofNat (Char.ofNat b.toNat).toNat = b := by
    intro b
    have hlt := b.toNat_lt
    have hvalid : b.toNat.isValidChar := .inl (by omega)
    rw [Char.ofNat, dif_pos hvalid]
    exact UInt8.ofNat_toNat
  simp [plainPrimitives, Function.comp_def, hbyte]

def minuteConfig : Config := ⟨"pbx", List.replicate 32 7, Time.minute, 10⟩

/-- A nonce issued half a second into the year 1970 is valid 59 seconds later, and no more a second
after that. -/
theorem nonce_validated_minute : ∃ nonce,
    Returns (issueNonce minuteConfig plainPrimitives)
      [⟨.now, Time.second / 2⟩, ⟨.random, some (List.replicate 16 1)⟩] (some nonce) ∧
    (∀ res, Returns (validateNonce minuteConfig plainPrimitives nonce)
      [⟨.now, 119 * Time.second / 2⟩] res ↔ res = (Time.minute, none)) ∧
    ∀ res, Returns (validateNonce minuteConfig plainPrimitives nonce)
      [⟨.now, 121 * Time.second / 2⟩] res ↔ res = (Time.minute, some .staleNonce) := by
  obtain ⟨nonce, hissue⟩ : ∃ nonce, Returns (issueNonce minuteConfig plainPrimitives)
      [⟨.now, Time.second / 2⟩, ⟨.random, some (List.replicate 16 1)⟩] (some nonce) := by
    rw [issueNonce_eq]
    exact ⟨_, .cons (.cons (.nil _))⟩
  have hmac : ∀ secret message, (plainPrimitives.hmac secret message).length = 32 := by
    intro secret message
    simp [plainPrimitives]
  have hvalid := nonce_validated hmac decodeBase64_plainPrimitives (by decide) (by decide)
    (show Time.second / 2 ≤ 119 * Time.second / 2 by decide) rfl hissue
  have hstale := nonce_validated hmac decodeBase64_plainPrimitives (by decide) (by decide)
    (show Time.second / 2 ≤ 121 * Time.second / 2 by decide) rfl hissue
  exact ⟨nonce, hissue, hvalid.1, hstale.1⟩

end AixvolinkPbx.Auth

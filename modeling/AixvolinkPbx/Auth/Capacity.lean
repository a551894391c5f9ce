import AixvolinkPbx.Auth.Replay

/-!
# The bound of the replay map (`internal/sip/auth/digest.go`)

`recordNonceCount` looks its key up, sweeps a full map, and inserts if there is room. From the map of
`New` on, no critical section makes the map larger than `MaxReplayEntries` (`ReplayOf.bounded`) or
forgets an entry that has not expired (`recordNonceCount_recorded`). The maps of a concurrent run of
`Verify` calls are among those it can make (`replayOf_of_reaches`).
-/

namespace AixvolinkPbx.Auth

/-- The replay maps of an `Authenticator`: that of `New`, and what critical sections make of them. -/
inductive ReplayOf (cfg : Config) : Replay → Prop
  | new {replay : Replay} (h : new cfg = .ok replay) : ReplayOf cfg replay
  | record {replay : Replay} (h : ReplayOf cfg replay) (key : ReplayKey)
      (nonceCount expiresAt now : ℤ) :
      ReplayOf cfg (recordNonceCount cfg replay key nonceCount expiresAt now).2

variable {cfg : Config} {replay replay' : Replay} {key : ReplayKey} {nonceCount expiresAt now : ℤ}
  {r : Except AuthError Unit}

theorem new_ok (h : new cfg = .ok replay) : replay = ∅ ∧ 0 < cfg.maxReplayEntries := by
  unfold new at h
  split_ifs at h with hrealm hsecret httl hentries
  exact ⟨(Except.ok.inj h).symm, not_le.mp hentries⟩

/-! ## One critical section -/

theorem size_makeRoom_le (cfg : Config) (now : ℤ) (replay : Replay) :
    (makeRoom cfg now replay).size ≤ replay.size := by
  unfold makeRoom
  split_ifs
  · exact Table.size_deleteIf_le _ _
  · exact le_rfl

theorem lookup_makeRoom_of_none (h : replay.lookup key = none) :
    (makeRoom cfg now replay).lookup key = none := by
  rw [Option.eq_none_iff_forall_ne_some]
  intro entry hentry
  rw [(lookup_makeRoom.mp hentry).1] at h
  cases h

theorem lookup_makeRoom_of_live {entry : ReplayEntry} {k : ReplayKey} (hlive : now < entry.expiresAt) :
    (makeRoom cfg now replay).lookup k = some entry ↔ replay.lookup k = some entry := by
  rw [lookup_makeRoom]
  constructor
  · rintro ⟨hentry, -⟩
    exact hentry
  · intro hentry
    exact ⟨hentry, fun hswept => by omega⟩

/-- A map of the bounded size that is full after the sweep was full of live entries before it. -/
theorem live_of_full (hbound : replay.size ≤ cfg.maxReplayEntries)
    (hfull : cfg.maxReplayEntries ≤ (makeRoom cfg now replay).size) :
    replay.size = cfg.maxReplayEntries ∧
      ∀ k entry, replay.lookup k = some entry → now < entry.expiresAt := by
  have hle := size_makeRoom_le cfg now replay
  have hsize : (replay.size : ℤ) = cfg.maxReplayEntries := by omega
  refine ⟨hsize, fun k entry hentry => ?_⟩
  rw [makeRoom, if_pos hsize.ge] at hfull
  have hswept : replay.size ≤ (sweep now replay).size := by omega
  simpa using Table.forall_of_size_deleteIf hswept ⟨k, entry⟩ (Table.lookup_eq_some.mp hentry)

theorem bounded_recordNonceCount (hbound : replay.size ≤ cfg.maxReplayEntries)
    (h : (r, replay') = recordNonceCount cfg replay key nonceCount expiresAt now) :
    replay'.size ≤ cfg.maxReplayEntries := by
  have hle := size_makeRoom_le cfg now replay
  rcases recordNonceCount_cases h with ⟨_, _, _, _, rfl⟩ | ⟨entry, hentry, _, _, rfl⟩ |
    ⟨_, _, _, rfl⟩ | ⟨hnone, hroom, _, rfl⟩
  · exact hbound
  · rwa [Table.size_insert_of_some hentry]
  · omega
  · rw [Table.size_insert_of_none (lookup_makeRoom_of_none hnone)]
    omega

/-- What a critical section at `now` does to a bounded map: it keeps the bound and what has not
expired, and an error says what the map had. -/
structure Recorded (cfg : Config) (replay : Replay) (key : ReplayKey) (nonceCount now : ℤ)
    (r : Except AuthError Unit) (replay' : Replay) : Prop where
  bounded : replay'.size ≤ cfg.maxReplayEntries
  kept : ∀ k entry, replay.lookup k = some entry → now < entry.expiresAt →
    ∃ entry', replay'.lookup k = some entry' ∧ entry.maxNonceCount ≤ entry'.maxNonceCount
  capacity : r = .error .replayCapacity → replay.size = cfg.maxReplayEntries ∧
    (∀ k entry, replay.lookup k = some entry → now < entry.expiresAt) ∧ replay.lookup key = none
  replayed : r = .error .replay →
    ∃ entry, replay.lookup key = some entry ∧ nonceCount ≤ entry.maxNonceCount
  unchanged : ∀ err, r = .error err → ∀ k entry, now < entry.expiresAt →
    (replay'.lookup k = some entry ↔ replay.lookup k = some entry)

/-- An entry is kept by an insertion under another key, or replaced by one with a larger count. -/
theorem kept_insert {room : Replay} {k : ReplayKey} {entry : ReplayEntry}
    (hentry : room.lookup k = some entry) (hcount : k = key → entry.maxNonceCount ≤ nonceCount) :
    ∃ entry', (room.insert key ⟨nonceCount, expiresAt⟩).lookup k = some entry' ∧
      entry.maxNonceCount ≤ entry'.maxNonceCount := by
  by_cases hkey : k = key
  · subst hkey
    exact ⟨_, AList.lookup_insert _, hcount rfl⟩
  · exact ⟨entry, (AList.lookup_insert_ne hkey).trans hentry, le_rfl⟩

theorem recordNonceCount_recorded (hbound : replay.size ≤ cfg.maxReplayEntries)
    (h : (r, replay') = recordNonceCount cfg replay key nonceCount expiresAt now) :
    Recorded cfg replay key nonceCount now r replay' := by
  have hbounded := bounded_recordNonceCount hbound h
  rcases recordNonceCount_cases h with ⟨old, hold, hle, rfl, rfl⟩ | ⟨old, hold, hlt, rfl, rfl⟩ |
    ⟨hnone, hfull, rfl, rfl⟩ | ⟨hnone, hroom, rfl, rfl⟩
  · constructor
    · exact hbounded
    · exact fun k entry hentry _ => ⟨entry, hentry, le_rfl⟩
    · rintro ⟨⟩
    · exact fun _ => ⟨old, hold, hle⟩
    · exact fun _ _ _ _ _ => Iff.rfl
  · constructor
    · exact hbounded
    · intro k entry hentry _
      refine kept_insert hentry ?_
      rintro rfl
      rw [hold] at hentry
      cases hentry
      exact hlt.le
    · rintro ⟨⟩
    · rintro ⟨⟩
    · rintro _ ⟨⟩
  · constructor
    · exact hbounded
    · exact fun k entry hentry hlive => ⟨entry, (lookup_makeRoom_of_live hlive).mpr hentry, le_rfl⟩
    · intro _
      obtain ⟨hsize, hlive⟩ := live_of_full hbound hfull
      exact ⟨hsize, hlive, hnone⟩
    · rintro ⟨⟩
    · exact fun _ _ _ _ hlive => lookup_makeRoom_of_live hlive
  · constructor
    · exact hbounded
    · intro k entry hentry hlive
      refine kept_insert ((lookup_makeRoom_of_live hlive).mpr hentry) ?_
      rintro rfl
      rw [hnone] at hentry
      cases hentry
    · rintro ⟨⟩
    · rintro ⟨⟩
    · rintro _ ⟨⟩

/-! ## Whole runs -/

theorem ReplayOf.bounded (h : ReplayOf cfg replay) : replay.size ≤ cfg.maxReplayEntries := by
  induction h with
  | new h =>
    obtain ⟨rfl, hpos⟩ := new_ok h
    exact hpos.le
  | record _ key nonceCount expiresAt now ih => exact bounded_recordNonceCount ih rfl

/-- Concurrent `Verify` calls make no other maps. -/
theorem replayOf_of_reaches {P : Primitives} (hnew : new cfg = .ok ∅) {t : ℤ} {ls : List AuthLabel}
    {st : AuthState} (h : (authSystem cfg P).Reaches (initialAuth t) ls st) :
    ReplayOf cfg st.shared.replay := by
  refine Steps.invariant (I := fun _ (st : AuthState) => ReplayOf cfg st.shared.replay) ?_ h
    (.new hnew)
  intro ls st l st' hst hstep
  cases hstep with
  | spawn => exact hst
  | env l sh henv =>
    obtain rfl := henv
    exact hst
  | act i th e k r sh hget hrest hperform =>
    cases e with
    | record key nonceCount expiresAt now =>
      have hrecord := ReplayOf.record hst key nonceCount expiresAt now
      rwa [← hperform.1] at hrecord
    | now =>
      rw [hperform.2]
      exact hst
    | random | lookupCredential =>
      rw [show sh = st.shared from hperform]
      exact hst

/-- **The replay cache.** A replay map of an `Authenticator` has at most `MaxReplayEntries` entries, and
a critical section at `now` keeps the bound, removes no entry that expires after `now` and lowers no
count of one. `ErrReplayCapacity` says that the map is full of live entries and has no entry for the
key, `ErrReplay` that the key has an entry with the same count or a larger one; neither changes a live
entry. -/
theorem replay_bounded (h : ReplayOf cfg replay) (key : ReplayKey) (nonceCount expiresAt now : ℤ) :
    replay.size ≤ cfg.maxReplayEntries ∧
      Recorded cfg replay key nonceCount now
        (recordNonceCount cfg replay key nonceCount expiresAt now).1
        (recordNonceCount cfg replay key nonceCount expiresAt now).2 :=
  ⟨h.bounded, recordNonceCount_recorded h.bounded rfl⟩

/-- The map after Alice's first request, with room for one entry. -/
def aliceReplay : Replay := (recordNonceCount smallConfig ∅ ⟨"n0", "alice"⟩ 1 10 0).2

theorem replay_bounded_bob :
    recordNonceCount smallConfig aliceReplay ⟨"n5", "bob"⟩ 1 15 5 =
        (.error .replayCapacity, aliceReplay) ∧
      (aliceReplay.lookup ⟨"n0", "alice"⟩).map (·.maxNonceCount) = some 1 ∧
      Recorded smallConfig aliceReplay ⟨"n5", "bob"⟩ 1 5 (.error .replayCapacity) aliceReplay := by
  have hfull : recordNonceCount smallConfig aliceReplay ⟨"n5", "bob"⟩ 1 15 5 =
      (.error .replayCapacity, aliceReplay) := by rfl
  have halice : ReplayOf smallConfig aliceReplay := .record (.new rfl) _ _ _ _
  have hrecorded := (replay_bounded halice ⟨"n5", "bob"⟩ 1 15 5).2
  rw [hfull] at hrecorded
  exact ⟨hfull, rfl, hrecorded⟩

end AixvolinkPbx.Auth

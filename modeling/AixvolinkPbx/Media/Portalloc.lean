import AixvolinkPbx.Base
import AixvolinkPbx.Lib.Interleave

/-!
# The pool of port pairs (`internal/media/portalloc/pool.go`)

A pool hands out pairs of UDP ports: an even one for RTP and the odd one after it for RTCP. The even
ports that are free wait in a channel. `Acquire` and `Release` run in any number of goroutines; a
channel operation, an atomic operation, a socket call and the two ends of a `sync.Once` are the steps
of their interleavings.
-/

namespace AixvolinkPbx.Portalloc

/-! ## Making a pool -/

structure Config where
  bindIP : Addr
  startPort : UInt16
  endPort : UInt16
  deriving DecidableEq, Repr

/-- A pool: the address, the capacity of the channel, and the ports in it at first. -/
structure Pool where
  bindIP : Addr
  capacity : ℕ
  ports : List UInt16
  deriving DecidableEq, Repr

/-- The loop of `New` that fills the channel, from `port` on and for at most `n` iterations. -/
def fill : ℕ → ℕ → ℕ → List UInt16
  | 0, _, _ => []
  | n + 1, port, endPort =>
    if port + 1 ≤ endPort then UInt16.ofNat port :: fill n (port + 2) endPort else []

def new (cfg : Config) : Except String Pool :=
  if !cfg.bindIP.isValid || cfg.bindIP.isUnspecified then
    .error "media bind IP must be a specified address"
  else if cfg.startPort < 1024 || cfg.startPort % 2 ≠ 0 then
    .error "RTP start port must be an even port at or above 1024"
  else if cfg.endPort ≤ cfg.startPort || cfg.endPort % 2 = 0 then
    .error "RTCP end port must be odd and above the RTP start port"
  else
    let pairCount : ℤ := ((cfg.endPort.toNat : ℤ) - cfg.startPort.toNat + 1).tdiv 2
    if pairCount ≤ 0 then .error "RTP port range contains no pairs"
    else .ok ⟨cfg.bindIP, pairCount.toNat,
      fill (cfg.endPort.toNat + 1) cfg.startPort.toNat cfg.endPort.toNat⟩

/-! ## Operations -/

/-- A lease: its number stands for the pointer, its port never changes. -/
structure Lease where
  id : ℕ
  rtpPort : UInt16
  deriving DecidableEq, Repr

def Lease.rtcpPort (l : Lease) : UInt16 := l.rtpPort + 1

inductive Network
  | udp4
  | udp6
  deriving DecidableEq, Repr

inductive Selected
  | received (port : UInt16)
  | done
  | empty
  deriving DecidableEq, Repr

inductive PoolOp
  | select
  | send (port : UInt16)
  | addInUse (delta : ℤ)
  -- sockets
  | listen (network : Network) (address : AddrPort)
  | close (address : AddrPort)
  -- leases: making one, and the two ends of its `once.Do`
  | allocate (port : UInt16)
  | onceEnter (lease : Lease)
  | storeReleased (lease : Lease)
  | onceExit (lease : Lease)
  deriving DecidableEq, Repr

abbrev poolSig : Sig where
  Op := PoolOp
  Ans
    | .select => Selected
    | .listen _ _ => Bool
    | .close _ => Bool
    | .allocate _ => ℕ
    | .onceEnter _ => Bool
    | _ => Unit

abbrev op (e : PoolOp) : Prog poolSig (poolSig.Ans e) := .call (S := poolSig) e

/-! ## The functions -/

inductive AcquireError
  | exhausted
  | context
  deriving DecidableEq, Repr

def network (bindIP : Addr) : Network := if bindIP.is6 then .udp6 else .udp4

/-- `bind`; none is an error. -/
def bind (bindIP : Addr) (port : UInt16) : Prog poolSig (Option Lease) := do
  if !(← op (.listen (network bindIP) ⟨bindIP, port⟩)) then return none
  if !(← op (.listen (network bindIP) ⟨bindIP, port + 1⟩)) then
    let _ ← op (.close ⟨bindIP, port⟩)
    return none
  let id ← op (.allocate port)
  return some ⟨id, port⟩

/-- The loop of `Acquire` with the ports that could not be bound so far. -/
def acquireLoop (bindIP : Addr) :
    ℕ → List UInt16 → Prog poolSig (Except AcquireError Lease × List UInt16)
  | 0, failed => return (.error .exhausted, failed)
  | attempts + 1, failed => do
    match ← op .select with
    | .done => return (.error .context, failed)
    | .empty => return (.error .exhausted, failed)
    | .received port =>
      match ← bind bindIP port with
      | none => acquireLoop bindIP attempts (failed ++ [port])
      | some lease =>
        op (.addInUse 1)
        return (.ok lease, failed)

/-- The deferred loop of `Acquire`. -/
def giveBack : List UInt16 → Prog poolSig Unit
  | [] => return ()
  | port :: failed => do
    op (.send port)
    giveBack failed

def acquire (pool : Pool) : Prog poolSig (Except AcquireError Lease) := do
  let (result, failed) ← acquireLoop pool.bindIP pool.capacity []
  giveBack failed
  return result

/-- `Release`; false is an error of a socket. -/
def release (bindIP : Addr) (lease : Lease) : Prog poolSig Bool := do
  if !(← op (.onceEnter lease)) then return true
  op (.storeReleased lease)
  let rtpClosed ← op (.close ⟨bindIP, lease.rtpPort⟩)
  let rtcpClosed ← op (.close ⟨bindIP, lease.rtcpPort⟩)
  op (.addInUse (-1))
  op (.send lease.rtpPort)
  op (.onceExit lease)
  return rtpClosed && rtcpClosed

/-! ## The calls on one pool -/

inductive Once
  | idle
  | running
  | done
  deriving DecidableEq, Repr

/-- The fields of a lease that change. -/
structure LeaseState where
  rtpPort : UInt16
  once : Once
  released : Bool
  deriving DecidableEq, Repr

/-- The channel, the counter, and all leases ever made. -/
structure Shared where
  available : List UInt16
  inUse : ℤ
  leases : List LeaseState

def Pool.initial (pool : Pool) : Shared := ⟨pool.ports, 0, []⟩

def Shared.setLease (sh : Shared) (lease : Lease) (f : LeaseState → LeaseState) : Shared :=
  { sh with leases := sh.leases.modify lease.id f }

/-- Entering `once.Do`: the first call runs the function, later ones wait until it has run. -/
def entersOnce (sh : Shared) (lease : Lease) (r : Bool) (sh' : Shared) : Prop :=
  match (sh.leases[lease.id]?).map LeaseState.once with
  | some .idle => r = true ∧ sh' = sh.setLease lease fun s => { s with once := .running }
  | some .done => r = false ∧ sh' = sh
  | _ => False

/-- How an operation answers and what it changes. A send waits for room in the channel. -/
def perform (capacity : ℕ) (sh : Shared) : (e : PoolOp) → poolSig.Ans e → Shared → Prop
  | .select, .received port, sh' =>
    ∃ rest, sh.available = port :: rest ∧ sh' = { sh with available := rest }
  | .select, .done, sh' => sh' = sh
  | .select, .empty, sh' => sh.available = [] ∧ sh' = sh
  | .send port, _, sh' =>
    sh.available.length < capacity ∧ sh' = { sh with available := sh.available ++ [port] }
  | .addInUse delta, _, sh' => sh' = { sh with inUse := sh.inUse + delta }
  | .allocate port, id, sh' =>
    id = sh.leases.length ∧ sh' = { sh with leases := sh.leases ++ [⟨port, .idle, false⟩] }
  | .onceEnter lease, r, sh' => entersOnce sh lease r sh'
  | .storeReleased lease, _, sh' => sh' = sh.setLease lease fun s => { s with released := true }
  | .onceExit lease, _, sh' => sh' = sh.setLease lease fun s => { s with once := .done }
  | _, _, sh' => sh' = sh

inductive Call
  | acquire
  | release (lease : Lease)
  deriving DecidableEq, Repr

inductive Outcome
  | acquired (result : Except AcquireError Lease)
  | released (ok : Bool)

/-- Calls on one pool: `Release` may be called on any lease there is, any number of times. -/
def poolSystem (pool : Pool) : System poolSig Call Outcome Shared Empty where
  prog
    | .acquire => do
      let result ← acquire pool
      return .acquired result
    | .release lease => do
      let ok ← release pool.bindIP lease
      return .released ok
  spawns sh
    | .acquire => True
    | .release lease => (sh.leases[lease.id]?).map LeaseState.rtpPort = some lease.rtpPort
  perform sh _ := perform pool.capacity sh
  env _ l _ := nomatch l

/-! ## Computed steps -/

/-- Entering a `sync.Once` with this answer, if it may have it. -/
def stepOnce {σ : Type} (once : Option Once) (r : Bool) (started sh : σ) : Option σ :=
  match once, r with
  | some .idle, true => some started
  | some .done, false => some sh
  | _, _ => none

theorem stepOnce_cases {σ : Type} {once : Option Once} {r : Bool} {started sh sh' : σ}
    (h : stepOnce once r started sh = some sh') :
    (once = some .idle ∧ r = true ∧ sh' = started) ∨
      (once = some .done ∧ r = false ∧ sh' = sh) := by
  unfold stepOnce at h
  split at h
  · exact .inl ⟨rfl, rfl, (Option.some.inj h).symm⟩
  · exact .inr ⟨rfl, rfl, (Option.some.inj h).symm⟩
  · cases h

/-- An operation of the pool with this answer, if it may have it. -/
def stepPool (capacity : ℕ) (sh : Shared) :
    (e : PoolOp) → poolSig.Ans e → Option Shared
  | .select, .received port =>
    if sh.available.head? = some port then some { sh with available := sh.available.tail } else none
  | .select, .done => some sh
  | .select, .empty => if sh.available = [] then some sh else none
  | .send port, _ =>
    if sh.available.length < capacity then some { sh with available := sh.available ++ [port] } else none
  | .addInUse delta, _ => some { sh with inUse := sh.inUse + delta }
  | .allocate port, id =>
    if id = sh.leases.length then some { sh with leases := sh.leases ++ [⟨port, .idle, false⟩] } else none
  | .onceEnter lease, r =>
    stepOnce ((sh.leases[lease.id]?).map LeaseState.once) r
      (sh.setLease lease fun s => { s with once := .running }) sh
  | .storeReleased lease, _ => some (sh.setLease lease fun s => { s with released := true })
  | .onceExit lease, _ => some (sh.setLease lease fun s => { s with once := .done })
  | _, _ => some sh

theorem stepPool_perform {capacity : ℕ} {sh sh' : Shared} {e : PoolOp} {r : poolSig.Ans e}
    (h : stepPool capacity sh e r = some sh') : perform capacity sh e r sh' := by
  cases e with
  | select =>
    cases r with
    | received port =>
      rw [stepPool] at h
      split_ifs at h with hhead
      cases h
      exact ⟨sh.available.tail, List.eq_cons_of_mem_head? hhead, rfl⟩
    | done =>
      cases h
      rfl
    | empty =>
      rw [stepPool] at h
      split_ifs at h with hempty
      cases h
      exact ⟨hempty, rfl⟩
  | send port =>
    rw [stepPool] at h
    split_ifs at h with hroom
    cases h
    exact ⟨hroom, rfl⟩
  | allocate port =>
    rw [stepPool] at h
    split_ifs at h with hid
    cases h
    exact ⟨hid, rfl⟩
  | onceEnter lease =>
    show entersOnce _ _ _ _
    rcases stepOnce_cases h with ⟨honce, hr, hsh⟩ | ⟨honce, hr, hsh⟩
    · rw [entersOnce, honce]
      exact ⟨hr, hsh⟩
    · rw [entersOnce, honce]
      exact ⟨hr, hsh⟩
  | addInUse | storeReleased | onceExit | listen | close =>
    cases h
    rfl

end AixvolinkPbx.Portalloc

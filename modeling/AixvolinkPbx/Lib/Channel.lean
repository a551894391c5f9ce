import AixvolinkPbx.Lib.Interleave

/-!
# Bounded channels

A channel holds at most `capacity` elements. A send needs room and appends an element, a receive takes
the first one. What was sent is what was received and, after it, what the channel still holds
(`sent_eq`), so nothing is lost, repeated or reordered.

A system that uses a channel among other things is brought down to it by `Steps.project`: its runs,
looked at through the channel only, are runs of the channel.
-/

/-- A run looked at through `f`: a step whose label `lab` maps to a label is one of the other relation,
and a step without one changes nothing that `f` shows. -/
theorem Steps.project {σ τ ℓ κ : Type*} {step : σ → ℓ → σ → Prop}
    {step' : τ → κ → τ → Prop}
    (f : σ → τ) (lab : ℓ → Option κ)
    (hstep : ∀ s l s', step s l s' → (lab l).elim (f s' = f s) fun k => step' (f s) k (f s'))
    {s s' : σ} {ls : List ℓ} (h : Steps step s ls s') :
    Steps step' (f s) (ls.filterMap lab) (f s') := by
  induction h with
  | nil => exact .nil
  | @snoc ls l s' s'' _ hs ih =>
    have hlast := hstep _ _ _ hs
    rw [List.filterMap_append]
    cases hl : lab l with
    | none =>
      rw [hl] at hlast
      have hlab : [l].filterMap lab = [] := by simp [hl]
      rw [hlab, List.append_nil, show f s'' = f s' from hlast]
      exact ih
    | some k =>
      rw [hl] at hlast
      have hlab : [l].filterMap lab = [k] := by simp [hl]
      rw [hlab]
      exact ih.snoc hlast

namespace Channel

variable {E : Type}

inductive Move (E : Type)
  | send (e : E)
  | receive (e : E)

/-- The moves of a channel that holds at most `capacity` elements. -/
inductive Step (capacity : ℕ) : List E → Move E → List E → Prop
  | send {buffer : List E} {e : E} (h : buffer.length < capacity) :
      Step capacity buffer (.send e) (buffer ++ [e])
  | receive {buffer : List E} {e : E} : Step capacity (e :: buffer) (.receive e) buffer

def Move.sent : Move E → Option E
  | .send e => some e
  | .receive _ => none

def Move.received : Move E → Option E
  | .send _ => none
  | .receive e => some e

def sent (ms : List (Move E)) : List E := ms.filterMap Move.sent

def received (ms : List (Move E)) : List E := ms.filterMap Move.received

variable {capacity : ℕ} {buffer buffer' : List E} {ms : List (Move E)}

/-- First in, first out. -/
theorem sent_eq (h : Steps (Step capacity) buffer ms buffer') :
    buffer ++ sent ms = received ms ++ buffer' := by
  induction h with
  | nil => simp [sent, received]
  | snoc _ hs ih =>
    rw [sent, received, List.filterMap_append, List.filterMap_append]
    cases hs with
    | send _ =>
      show buffer ++ (sent _ ++ [_]) = received _ ++ [] ++ (_ ++ [_])
      rw [List.append_nil, ← List.append_assoc, ih, List.append_assoc]
    | receive =>
      show buffer ++ (sent _ ++ []) = received _ ++ [_] ++ _
      rw [List.append_nil, ih, List.append_assoc, List.singleton_append]

theorem length_le (h : Steps (Step capacity) buffer ms buffer') (hb : buffer.length ≤ capacity) :
    buffer'.length ≤ capacity := by
  induction h with
  | nil => exact hb
  | snoc _ hs ih =>
    cases hs with
    | send hroom =>
      rw [List.length_append, List.length_singleton]
      omega
    | receive =>
      rw [List.length_cons] at ih
      omega

end Channel

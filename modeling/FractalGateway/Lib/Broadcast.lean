import Mathlib.Tactic.Linarith

/-! A bounded broadcast channel, as a receiver sees it.

    The channel keeps its last `capacity` values. A receiver starts at the end and reads on from
    there; when it falls further behind than the channel keeps, its next read reports the lag
    instead of a value. So the values it has been given without a report are the ones sent since it
    subscribed, in order and without a gap (`Given`). -/

namespace Broadcast

variable {α : Type}

/-- Everything sent so far; the last `capacity` values can still be read. -/
structure Channel (α : Type) where
  capacity : ℕ
  values : List α

/-- Where a receiver started, and the number of the value it reads next. -/
structure Receiver where
  since : ℕ
  next : ℕ

/-- What a read finds. -/
inductive Recv (α : Type) where
  | pending
  | lagged (missed : ℕ)
  | value (a : α) (receiver : Receiver)

def Channel.send (c : Channel α) (a : α) : Channel α := { c with values := c.values ++ [a] }

def Channel.subscribe (c : Channel α) : Receiver := ⟨c.values.length, c.values.length⟩

def Channel.recv (c : Channel α) (r : Receiver) : Recv α :=
  if r.next + c.capacity < c.values.length then .lagged (c.values.length - c.capacity - r.next)
  else match c.values[r.next]? with
    | some a => .value a { r with next := r.next + 1 }
    | none => .pending

theorem Channel.recv_since {c : Channel α} {r r' : Receiver} {a : α}
    (h : c.recv r = .value a r') : r'.since = r.since := by
  unfold Channel.recv at h
  split at h
  · cases h
  · split at h
    · cases h
      rfl
    · cases h

/-- The receiver has been given `passed`: the values since it subscribed, up to its place. -/
def Given (c : Channel α) (r : Receiver) (passed : List α) : Prop :=
  ∃ before after, c.values = before ++ passed ++ after ∧ before.length = r.since ∧
    r.next = r.since + passed.length

theorem Given.subscribe (c : Channel α) : Given c c.subscribe [] :=
  ⟨c.values, [], by simp, rfl, rfl⟩

theorem Given.send {c : Channel α} {r : Receiver} {passed : List α} (h : Given c r passed) (a : α) :
    Given (c.send a) r passed := by
  obtain ⟨before, after, hvalues, hsince, hnext⟩ := h
  refine ⟨before, after ++ [a], ?_, hsince, hnext⟩
  rw [Channel.send, hvalues, List.append_assoc]

/-- A read that finds a value gives the next one. -/
theorem Given.recv {c : Channel α} {r r' : Receiver} {passed : List α} {a : α}
    (h : Given c r passed) (hrecv : c.recv r = .value a r') : Given c r' (passed ++ [a]) := by
  obtain ⟨before, after, hvalues, hsince, hnext⟩ := h
  unfold Channel.recv at hrecv
  split at hrecv
  · cases hrecv
  split at hrecv
  · next b hget =>
    cases hrecv
    have hlen : r.next = (before ++ passed).length := by
      rw [List.length_append]
      omega
    rw [hvalues, hlen, List.getElem?_append_right (Nat.le_refl _), Nat.sub_self] at hget
    cases after with
    | nil => cases hget
    | cons b after =>
      cases hget
      refine ⟨before, after, by simp [hvalues], hsince, ?_⟩
      simp only [List.length_append, List.length_singleton]
      omega
  · cases hrecv

/-- What was sent since it subscribed is what a receiver has been given and what is still ahead. -/
theorem Given.drop_since {c : Channel α} {r : Receiver} {passed : List α} (h : Given c r passed) :
    c.values.drop r.since = passed ++ c.values.drop r.next := by
  obtain ⟨before, after, hvalues, hsince, hnext⟩ := h
  have hlen : r.next = (before ++ passed).length := by
    rw [List.length_append, hsince, hnext]
  rw [hlen, hvalues, List.drop_left, List.append_assoc, ← hsince, List.drop_left]

/-- What a receiver has been given is a prefix of what was sent since it subscribed. -/
theorem Given.isPrefix {c : Channel α} {r : Receiver} {passed : List α} (h : Given c r passed) :
    passed <+: c.values.drop r.since := by
  rw [h.drop_since]
  exact List.prefix_append passed _

end Broadcast

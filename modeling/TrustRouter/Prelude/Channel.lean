import Mathlib.Data.List.Basic

/-!
# Bounded channels

A queue with many senders and one receiver.  A send to an open channel waits while the queue
is full, and one to a closed channel fails and gives back what was sent; what the receiver
takes is what was sent first.  When the receiver is gone the channel is closed, and what is
still in the queue stays there.

`Carries` is what is lossless about it: at any time, what has been sent is what has been
received and then what is in the queue, in this order.
-/

namespace TrustRouter

universe u

structure Channel (α : Type u) where
  queue : List α
  capacity : ℕ
  isOpen : Bool

namespace Channel

variable {α : Type u}

def new (capacity : ℕ) : Channel α := ⟨[], capacity, true⟩

/-- A send has to wait. -/
def isFull (channel : Channel α) : Bool :=
  channel.isOpen && channel.capacity ≤ channel.queue.length

/-- A send that does not wait any longer. -/
def send (channel : Channel α) (item : α) : Except α Unit × Channel α :=
  if channel.isOpen then (.ok (), { channel with queue := channel.queue ++ [item] })
  else (.error item, channel)

/-- What the receiver takes, if there is anything and if there is a receiver. -/
def recv (channel : Channel α) : Option (α × Channel α) :=
  match channel.isOpen, channel.queue with
  | true, item :: rest => some (item, { channel with queue := rest })
  | _, _ => none

def close (channel : Channel α) : Channel α := { channel with isOpen := false }

/-- Nothing is lost, and nothing overtakes. -/
def Carries (channel : Channel α) (sent received : List α) : Prop :=
  sent = received ++ channel.queue

variable {channel : Channel α} {sent received : List α} {item : α}

theorem carries_new (capacity : ℕ) : (new capacity : Channel α).Carries [] [] := rfl

theorem send_of_open (isOpen : channel.isOpen = true) :
    channel.send item = (.ok (), { channel with queue := channel.queue ++ [item] }) :=
  if_pos isOpen

theorem send_of_closed (closed : channel.isOpen = false) :
    channel.send item = (.error item, channel) :=
  if_neg (Bool.eq_false_iff.mp closed)

/-- What is sent comes after everything sent before. -/
theorem Carries.send (carries : channel.Carries sent received) (item : α) :
    { channel with queue := channel.queue ++ [item] }.Carries (sent ++ [item]) received :=
  (congrArg (· ++ [item]) carries).trans (List.append_assoc ..)

theorem Carries.recv {rest : Channel α} (carries : channel.Carries sent received)
    (taken : channel.recv = some (item, rest)) : rest.Carries sent (received ++ [item]) := by
  unfold Channel.recv at taken
  split at taken
  · next first others _ queue =>
      obtain ⟨rfl, rfl⟩ := Prod.mk.inj (Option.some.inj taken)
      rw [Carries, carries, queue, List.append_assoc]
      rfl
  · cases taken

theorem Carries.close (carries : channel.Carries sent received) :
    channel.close.Carries sent received := carries

/-- A channel with nothing in it has delivered everything. -/
theorem Carries.received_eq (carries : channel.Carries sent received)
    (drained : channel.queue = []) : received = sent := by
  rw [Carries, drained, List.append_nil] at carries
  exact carries.symm

end Channel

end TrustRouter

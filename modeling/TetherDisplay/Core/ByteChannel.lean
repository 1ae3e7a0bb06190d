import TetherDisplay.Protocol.Message
import Mathlib.Data.Int.Order.Basic
import Mathlib.Tactic.Common

/-!
# Byte channels

`IByteChannel` as its caller sees it.  What a raw channel will deliver is a script, the
`inbox`: pieces of data as they arrive, an end of the stream, an error.  A `Recv` returns
no more than it has room for and no more than one piece, so every way of cutting a stream
into reads is an inbox.  Likewise `sends` is the outcome of each `SendAll` to come.

`arriving` is the stream as such, the bytes up to the first end or error, and `beyond` is
what the inbox has behind that.  Readers are specified by these two: how the bytes were
cut into pieces is gone.
-/

namespace TetherDisplay.Core

/-- The outcome of a `Recv`. -/
inductive Received where
  | data (bytes : Bytes)
  | closed
  | failed
  deriving DecidableEq, Repr

/-- What `Recv` returns: `> 0` is the number of bytes read, `0` that the peer has closed,
`< 0` an error. -/
def Received.count : Received → ℤ
  | .data bytes => bytes.length
  | .closed => 0
  | .failed => -1

/-- What `Recv` leaves in the buffer. -/
def Received.bytes : Received → Bytes
  | .data bytes => bytes
  | _ => []

/-- A channel: what will be received, how each `SendAll` will go, and what has been sent. -/
structure ByteChannel where
  inbox : List Received := []
  /-- Each `SendAll` to come: `none` sends everything, `some n` fails after `n` bytes.
  None of them fails once the list is used up. -/
  sends : List (Option ℕ) := []
  outbox : Bytes := []
  deriving DecidableEq, Repr

namespace ByteChannel

/-- `Recv` into a buffer of `room` bytes.  An inbox that is used up is a closed peer. -/
def recv (c : ByteChannel) (room : ℕ) : Received × ByteChannel :=
  match c.inbox with
  | [] => (.closed, c)
  | .data bytes :: inbox =>
      if bytes.length ≤ room then (.data bytes, { c with inbox })
      else (.data (bytes.take room), { c with inbox := .data (bytes.drop room) :: inbox })
  | r :: inbox => (r, { c with inbox })

/-- `SendAll`: a failure may come after a part of the data. -/
def sendAll (c : ByteChannel) (data : Bytes) : Bool × ByteChannel :=
  match c.sends with
  | [] => (true, { c with outbox := c.outbox ++ data })
  | none :: sends => (true, { c with sends, outbox := c.outbox ++ data })
  | some n :: sends => (false, { c with sends, outbox := c.outbox ++ data.take n })

end ByteChannel

/-- The bytes of the stream, up to its end. -/
def arriving : List Received → Bytes
  | .data (b :: bytes) :: inbox => b :: bytes ++ arriving inbox
  | _ => []

/-- What the inbox has behind the end of the stream. -/
def beyond : List Received → List Received
  | .data (_ :: _) :: inbox => beyond inbox
  | _ :: inbox => inbox
  | [] => []

@[simp] theorem arriving_data (b : UInt8) (bytes : Bytes) (inbox : List Received) :
    arriving (.data (b :: bytes) :: inbox) = b :: bytes ++ arriving inbox := rfl

@[simp] theorem arriving_singleton (bytes : Bytes) : arriving [.data bytes] = bytes := by
  cases bytes with
  | nil => rfl
  | cons b bytes => exact List.append_nil _

@[simp] theorem beyond_data (b : UInt8) (bytes : Bytes) (inbox : List Received) :
    beyond (.data (b :: bytes) :: inbox) = beyond inbox := rfl

/-- **One `Recv` with room** takes bytes off the front of the stream, or finds the stream
ended and what is beyond. -/
theorem ByteChannel.recv_cases (c : ByteChannel) {room : ℕ} (hroom : 0 < room) :
    (∃ bytes inbox, bytes ≠ [] ∧ bytes.length ≤ room ∧
        c.recv room = (.data bytes, { c with inbox }) ∧
        arriving c.inbox = bytes ++ arriving inbox ∧ beyond c.inbox = beyond inbox) ∨
      (∃ r, c.recv room = (r, { c with inbox := beyond c.inbox }) ∧ r.count ≤ 0 ∧
        arriving c.inbox = []) := by
  obtain ⟨inbox, sends, outbox⟩ := c
  cases inbox with
  | nil => exact Or.inr ⟨.closed, rfl, le_rfl, rfl⟩
  | cons r inbox =>
      cases r with
      | closed => exact Or.inr ⟨.closed, rfl, le_rfl, rfl⟩
      | failed => exact Or.inr ⟨.failed, rfl, by decide, rfl⟩
      | data bytes =>
          cases bytes with
          | nil => exact Or.inr ⟨.data [], rfl, le_rfl, rfl⟩
          | cons b bytes =>
              refine Or.inl ?_
              -- a piece that does not fit stays in the inbox with the rest of it
              by_cases hfit : (b :: bytes).length ≤ room
              · exact ⟨b :: bytes, inbox, List.cons_ne_nil _ _, hfit, if_pos hfit, rfl, rfl⟩
              · obtain ⟨rest, last, hrest⟩ :
                    ∃ rest last, (b :: bytes).drop room = rest :: last := by
                  cases hdrop : (b :: bytes).drop room with
                  | nil => exact absurd (List.drop_eq_nil_iff.mp hdrop) hfit
                  | cons rest last => exact ⟨rest, last, rfl⟩
                refine ⟨(b :: bytes).take room, .data ((b :: bytes).drop room) :: inbox, ?_, ?_,
                  if_neg hfit, ?_, ?_⟩
                · intro hnil
                  have hlen := congrArg List.length hnil
                  rw [List.length_take] at hlen
                  simp only [List.length_cons, List.length_nil] at hlen hfit
                  omega
                · rw [List.length_take]; exact Nat.min_le_left _ _
                · rw [hrest, arriving_data, arriving_data, ← List.append_assoc, ← hrest,
                    List.take_append_drop]
                · rw [hrest, beyond_data, beyond_data]

end TetherDisplay.Core

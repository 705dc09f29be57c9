import CboeEmulator.DataFeed.LimitOrderBook

/-!
# Market-Data Feed: the Receiver

`DataFeed::Receiver` of `data_feed/receiver.hpp`: a listener that applies each feed message to its
mirror book. `read_message` checks sequence numbers and dispatches on the message kind; the
`handle` overloads are modelled here, together with the packets a mirror takes as the server
meant them (`Admissible`) and runs of packets each taken so (`Replays`).

## Representation

- The handler's `did_receive` callbacks and the `std::cerr` lines for unknown uids observe the
  receiver and change nothing in it; they are left out, as is `last_sequence`, which only
  `read_message` reads.
- `Messages::Message` has no constructor for an unknown `MessageID`, so `handle(Header)`, which
  throws, has no case.
-/

namespace CboeEmulator.DataFeed

open OrderEntry.LOB (BookError)
open OrderEntry.LOB.LimitOrderBook (crosses)
open Messages (Message)

/-- The state of a `Receiver` the handlers change. -/
structure Receiver where
  /-- `book`: the re-built limit order book for the instrument -/
  book : LOB.LimitOrderBook
  /-- `_is_session_active` -/
  isSessionActive : Bool

namespace Receiver

/-- A new receiver: an empty book, no session. -/
def init : Receiver := ⟨LOB.LimitOrderBook.init, false⟩

/-- A new book. -/
def withBook (r : Receiver) (b : LOB.LimitOrderBook) : Receiver := { r with book := b }

/-- `handle(message)`, one case per overload. A `DeleteOrder` or `Trade` for a uid the book does
not have is dropped; `reduce` throws when the trade is larger than the order. -/
def handle (r : Receiver) : Message → Except BookError Receiver
  | .startOfSession => .ok { r with isSessionActive := true }
  | .endOfSession => .ok { r with isSessionActive := false }
  | .clear => .ok (r.withBook r.book.clear)
  | .addOrder uid price quantity side =>
    .ok (r.withBook (r.book.limit (sideToLOBSide side) uid quantity price))
  | .deleteOrder uid =>
    if r.book.has uid then r.withBook <$> r.book.cancel uid else .ok r
  | .trade uid _ quantity _ =>
    if r.book.has uid then r.withBook <$> r.book.reduce uid quantity else .ok r

/-- The receiver after a run of messages, or the first exception. -/
def run (r : Receiver) (msgs : List Message) : Except BookError Receiver :=
  msgs.foldlM handle r

@[simp] theorem withBook_book (r : Receiver) (b : LOB.LimitOrderBook) : (r.withBook b).book = b :=
  rfl

section Equations

variable {r : Receiver} {uid : Nat}

/-- A `DeleteOrder` for an order the book holds cancels it. -/
theorem handle_deleteOrder_of_mem (h : uid ∈ r.book.orders) :
    r.handle (.deleteOrder uid) = r.withBook <$> r.book.cancel uid := by
  simp [handle, LOB.LimitOrderBook.has, h]

/-- A `Trade` for an order the book holds reduces it. -/
theorem handle_trade_of_mem (h : uid ∈ r.book.orders) (price quantity : Nat) (side : Side) :
    r.handle (.trade uid price quantity side) = r.withBook <$> r.book.reduce uid quantity := by
  simp [handle, LOB.LimitOrderBook.has, h]

end Equations

end Receiver

/-! ## §1 Packets the mirror takes as meant -/

/-- A packet the book `b` takes as the server meant it: an `AddOrder` is for a uid the book does
not hold and crosses none of the book's opposite levels; a `DeleteOrder` is for an order the book
holds; a `Trade` is for an order the book holds and is no larger than it. -/
def Admissible (b : LOB.LimitOrderBook) : Message → Prop
  | .addOrder uid price _ side => uid ∉ b.orders ∧
    ∀ key, (b.trees (sideToLOBSide side).not).best = some key →
      ¬ crosses (sideToLOBSide side) key price
  | .deleteOrder uid => uid ∈ b.orders
  | .trade uid _ quantity _ => ∃ o, b.orders.lookup uid = some o ∧ quantity ≤ o.quantity
  | _ => True

/-- **A run of packets**, each admissible in the receiver it reaches and handled without an
exception, from `r` to `r'`. -/
inductive Replays : List Message → Receiver → Receiver → Prop
  | nil (r : Receiver) : Replays [] r r
  | cons {m : Message} {ms : List Message} {r r₁ r₂ : Receiver} :
      Admissible r.book m → r.handle m = .ok r₁ → Replays ms r₁ r₂ → Replays (m :: ms) r r₂

namespace Replays

variable {ms ms' : List Message} {r r₁ r₂ : Receiver}

/-- One admissible packet handled. -/
theorem single {m : Message} (ha : Admissible r.book m) (hr : r.handle m = .ok r₁) :
    Replays [m] r r₁ :=
  .cons ha hr (.nil r₁)

/-- Runs compose. -/
theorem append (h₁ : Replays ms r r₁) (h₂ : Replays ms' r₁ r₂) : Replays (ms ++ ms') r r₂ := by
  induction h₁ with
  | nil => exact h₂
  | cons ha hr _ ih => exact .cons ha hr (ih h₂)

/-- A run of packets is what `run` computes. -/
theorem run_eq (h : Replays ms r r₁) : r.run ms = .ok r₁ := by
  induction h with
  | nil => rfl
  | cons _ hr _ ih => simp only [Receiver.run, List.foldlM_cons, hr] at ih ⊢; exact ih

end Replays

end CboeEmulator.DataFeed

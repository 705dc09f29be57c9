/-!
# Market-Data Feed: Messages

The payloads of `data_feed/messages.hpp`. The `Header` (length, kind, sequence number and time)
is added by `Sender::send` and is not part of a payload here.
-/

namespace CboeEmulator.DataFeed

/-- `enum class Side : char { Sell = 'S', Buy = 'B' }`: the side byte on the wire. -/
abbrev Side := Char

/-- `side_to_bool`: only the byte `'B'` reads as a buy. -/
def sideToBool (side : Side) : Bool := side == 'B'

/-- `bool_to_side`: `'B'` for a buy, `'S'` for a sell. -/
def boolToSide : Bool → Side
  | true => 'B'
  | false => 'S'

@[simp] theorem sideToBool_boolToSide (b : Bool) : sideToBool (boolToSide b) = b := by
  cases b <;> decide

namespace Messages

/-- The feed's messages, one constructor per `MessageID`, with their payload fields. -/
inductive Message where
  /-- `Clear` ('c'): clear the book -/
  | clear
  /-- `AddOrder` ('a'): a limit order was added to the book -/
  | addOrder (uid price quantity : Nat) (side : Side)
  /-- `DeleteOrder` ('d'): an order left the book -/
  | deleteOrder (uid : Nat)
  /-- `Trade` ('t'): a market order matched the limit order `uid` -/
  | trade (uid price quantity : Nat) (side : Side)
  /-- `StartOfSession` ('s') -/
  | startOfSession
  /-- `EndOfSession` ('e') -/
  | endOfSession
  deriving DecidableEq, Repr

end Messages

end CboeEmulator.DataFeed

import CboeEmulator.OrderEntry.Structures

/-!
# Order-Entry Server: Messages

The application messages of `order_entry/messages.hpp`. A request is what `read_buffer`'s switch
on the header's `MessageID` hands to one overload of `Connection::handle`; a response is the
payload `Connection::send` writes behind a header that carries the connection's sequence number.

## Representation

- The side byte of a request is any byte the client sends (`enum class Side : char` is read
  straight from the packet): it is a `Char`, and only `'B'` reads as a buy.
- `Price`, `Quantity` and `OrderID` are natural numbers; user names and passwords are the strings
  `username_string` / `password_string` make of their byte arrays.
- The header's length and kind are fixed by the payload and are not fields here; the sequence
  number is added by `Connection::send`.
- A request's fields are unbounded here; `Request.Fits` says they fit their C++ types, as the
  fields of every request a client can send do.
-/

namespace CboeEmulator.OrderEntry.Messages

/-- `enum class Side : char { Sell = 'S', Buy = 'B' }`: the side byte on the wire. -/
abbrev Side := Char

/-- `side_to_bool`: `not (side - 'B')`, so only the byte `'B'` reads as a buy. -/
def sideToBool (side : Side) : Bool := side == 'B'

/-- `side_to_LOB_side`: the book's side of a side byte, through `side_to_bool`. -/
def sideToLOBSide (side : Side) : LOB.Side := if sideToBool side then .buy else .sell

/-- `bool_to_side`: `'B'` for `true`, `'S'` for `false`. -/
def boolToSide : Bool → Side
  | true => 'B'
  | false => 'S'

/-- `bool_to_side(static_cast<bool>(side))` for a side of the book. -/
def ofLOBSide (side : LOB.Side) : Side := boolToSide (side == .buy)

@[simp] theorem sideToLOBSide_buy : sideToLOBSide 'B' = .buy := rfl
@[simp] theorem sideToLOBSide_sell : sideToLOBSide 'S' = .sell := rfl

/-- The shared body of `make_username` and `make_password`: the string, which must have exactly
`size` characters to fill the array. -/
def makeArray (what : String) (size : Nat) (s : String) : Except String String :=
  if s.length ≠ size then .error (what ++ " must have " ++ toString size ++ " characters!")
  else .ok s

/-- `make_username`: a `Username` is `std::array<char, 4>`. -/
def makeUsername (username : String) : Except String String := makeArray "username" 4 username

/-- `make_password`: a `Password` is `std::array<char, 12>`. -/
def makePassword (password : String) : Except String String := makeArray "password" 12 password

/-- What `make_username` and `make_password` accept fills the array exactly, unchanged. -/
theorem eq_of_makeArray {what : String} {size : Nat} {s v : String}
    (h : makeArray what size s = .ok v) : v = s ∧ s.length = size := by
  unfold makeArray at h
  split_ifs at h with hs
  cases h
  exact ⟨rfl, not_not.mp hs⟩

/-- `ORDER_PRICE_MARKET`: the price of an `OrderRequest` for a market order. -/
def orderPriceMarket : Nat := 0

/-- `ORDER_ID_MARKET`: the order id answered to a market order. -/
def orderIdMarket : Nat := 0

/-- `ORDER_ID_REJECTED`: the order id answered to a rejected request. -/
def orderIdRejected : Nat := 0

/-- `LoginResponseStatus`. -/
inductive LoginResponseStatus where
  /-- `'A'`: the login request was accepted -/
  | accepted
  /-- `'N'`: the credentials are incorrect -/
  | notAuthorized
  /-- `'C'`: the user is already authorized -/
  | alreadyAuthorized
  /-- `'B'`: the user is logged in already -/
  | sessionInUse
  deriving DecidableEq, Repr

/-- `LogoutReason`. -/
inductive LogoutReason where
  /-- `'U'`: the user requested to logout -/
  | userRequested
  /-- `'E'`: the trading day is ending -/
  | endOfDay
  /-- `'A'`: administrative reason -/
  | administrative
  /-- `'!'`: the client violated the application protocol -/
  | protocolViolation
  deriving DecidableEq, Repr

/-- `OrderStatus`, `CancelStatus`, `ReplaceStatus` and `PurgeStatus`, which share their two
values `'A'` and `'R'`. -/
inductive Status where
  | accepted
  | rejected
  deriving DecidableEq, Repr

/-- The requests `read_buffer` dispatches, one per overload of `Connection::handle`. -/
inductive Request where
  /-- `LoginRequest` ('L') -/
  | loginRequest (username password : String)
  /-- `LogoutRequest` ('O') -/
  | logoutRequest
  /-- `OrderRequest` ('N'): price 0 is a market order -/
  | orderRequest (price quantity : Nat) (side : Side)
  /-- `CancelRequest` ('C') -/
  | cancelRequest (orderId : Nat)
  /-- `ReplaceRequest` ('R') -/
  | replaceRequest (orderId price quantity : Nat) (side : Side)
  /-- `PurgeRequest` ('P') -/
  | purgeRequest
  /-- a frame of any other `MessageID`, handled as a bare `Header` -/
  | header
  deriving DecidableEq, Repr

/-- The fields fit their C++ types: a `Username` of 4 and a `Password` of 12 `char`s, `OrderID`
and `Price` in 8 bytes, `Quantity` in 4, a side in one `char`. A bare `Header` is not sent. -/
def Request.Fits : Request → Prop
  | .loginRequest username password => username.length = 4 ∧ password.length = 12 ∧
      ∀ c ∈ username.toList ++ password.toList, c.toNat < 256
  | .orderRequest price quantity side => price < 256 ^ 8 ∧ quantity < 256 ^ 4 ∧ side.toNat < 256
  | .cancelRequest orderId => orderId < 256 ^ 8
  | .replaceRequest orderId price quantity side =>
    orderId < 256 ^ 8 ∧ price < 256 ^ 8 ∧ quantity < 256 ^ 4 ∧ side.toNat < 256
  | .logoutRequest | .purgeRequest => True
  | .header => False

instance : DecidablePred Request.Fits
  | .loginRequest .. => inferInstanceAs (Decidable (_ ∧ _ ∧ _))
  | .orderRequest .. => inferInstanceAs (Decidable (_ ∧ _ ∧ _))
  | .cancelRequest _ => inferInstanceAs (Decidable (_ < _))
  | .replaceRequest .. => inferInstanceAs (Decidable (_ ∧ _ ∧ _ ∧ _))
  | .logoutRequest | .purgeRequest => inferInstanceAs (Decidable True)
  | .header => inferInstanceAs (Decidable False)

/-- The responses a connection sends. -/
inductive Response where
  /-- `LoginResponse` ('l') -/
  | loginResponse (status : LoginResponseStatus)
  /-- `LogoutResponse` ('o') -/
  | logoutResponse (reason : LogoutReason)
  /-- `OrderResponse` ('n') -/
  | orderResponse (orderId : Nat) (status : Status)
  /-- `CancelResponse` ('c') -/
  | cancelResponse (orderId : Nat) (status : Status)
  /-- `ReplaceResponse` ('r') -/
  | replaceResponse (canceled newOrderId : Nat) (status : Status)
  /-- `PurgeResponse` ('p') -/
  | purgeResponse (status : Status)
  /-- `TradeResponse` ('t') -/
  | tradeResponse (orderId price quantity leavesQuantity : Nat) (side : Side)
  deriving DecidableEq, Repr

/-- The `MessageID` a response's constructor writes into its header. -/
def Response.messageId : Response → Char
  | .loginResponse _ => 'l'
  | .logoutResponse _ => 'o'
  | .orderResponse .. => 'n'
  | .cancelResponse .. => 'c'
  | .replaceResponse .. => 'r'
  | .purgeResponse _ => 'p'
  | .tradeResponse .. => 't'

/-- A frame on the wire: the header's sequence number and the payload. -/
structure Frame where
  /-- `Header::sequence` -/
  sequence : Nat
  /-- the payload after the header -/
  response : Response
  deriving DecidableEq, Repr

end CboeEmulator.OrderEntry.Messages

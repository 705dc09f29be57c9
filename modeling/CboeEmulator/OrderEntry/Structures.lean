import Mathlib

/-!
# Order-Entry Book: Orders, Limits and Accounts

The records of `order_entry/limit_order_book/structures.hpp`: the two sides of the book,
`Order`, `Limit`, and the `Account` whose four virtual callbacks the matching loop fires.

## Representation

- `UID`, `Quantity`, `Price` (`uint64_t`, `uint32_t`, `uint64_t`) and the level and side totals
  `Count` and `Volume` are natural numbers. The book only compares and sums them; a `Count` or
  `Volume` would wrap only with 2^32 orders resting at one price.
- The uid counter `sequence` is a natural number too. The `uint64_t` would wrap back to 0 only
  after 2^64 - 1 orders have rested since the start or the last `clear`; the results that need
  the uids to fit their 8-byte fields (`Server.WireRun.wireInv`) take `sequence < 2^64` as a
  hypothesis, and the others hold of the unbounded counter.
- `Shares` and `Capital` are `int64_t` balances and are `BitVec 64` here: `Account::fill`
  multiplies `quantity * price` in `uint64_t` and adds the product to a signed balance, and both
  wrap modulo 2^64.
- A pointer to an `Order` is the order's uid. The UID map owns every order, so while an order
  lives its uid and its address name the same record (the arena reading of the spec, §9).
- A pointer to an `Account` is an `AccountId`; the server keys its accounts by user name.
-/

namespace CboeEmulator.OrderEntry.LOB

/-! ## §1 Sides and scalar types -/

/-- `enum class Side : bool { Sell = false, Buy = true }`. -/
inductive Side where
  | sell
  | buy
  deriving DecidableEq, Repr

/-- `operator!(Side)`: the other side of the book. -/
def Side.not : Side → Side
  | .sell => .buy
  | .buy => .sell

@[simp] theorem Side.not_sell : Side.sell.not = .buy := rfl
@[simp] theorem Side.not_buy : Side.buy.not = .sell := rfl
@[simp] theorem Side.not_not (s : Side) : s.not.not = s := by cases s <;> rfl
@[simp] theorem Side.not_ne (s : Side) : s.not ≠ s := by cases s <;> decide

/-- `typedef int64_t Shares`, two's complement. -/
abbrev Shares := BitVec 64
/-- `typedef int64_t Capital`, two's complement. -/
abbrev Capital := BitVec 64
/-- An `Account*`: the account's user name on the server. -/
abbrev AccountId := String

/-! ## §2 Orders and limits -/

/-- `struct Order`. The intrusive `next`/`prev` links are not fields here: a `Limit` lists its
orders in FIFO order. `limit` is the back pointer, given by the key of the `Limit` in the tree
of the order's side (`none` for `nullptr`). -/
structure Order where
  /-- the day-unique ID for this particular order (`UID`) -/
  uid : Nat
  /-- whether the order is a buy or a sell -/
  side : Side
  /-- the quantity of the order, i.e., the number of shares (`Quantity`) -/
  quantity : Nat
  /-- the limit price for the order, 0 for a market order (`Price`) -/
  price : Nat
  /-- the limit this order falls under -/
  limit : Option Nat
  /-- the account this order belongs to -/
  account : AccountId
  deriving DecidableEq, Repr

/-- `struct Limit`: one price level. `orders` is the FIFO `order_head .. order_tail`. -/
structure Limit where
  /-- the price of the level (`BST::Node<Price>::key`) -/
  key : Nat
  /-- the number of orders at this limit price (`Count`) -/
  count : Nat
  /-- the total amount of volume at this limit price (`Volume`) -/
  volume : Nat
  /-- the queue, head (next to execute) first -/
  orders : List Nat
  deriving DecidableEq, Repr

/-- `explicit Limit(Order* order)`: a level holding one order. -/
def Limit.ofOrder (o : Order) : Limit := ⟨o.price, 1, o.quantity, [o.uid]⟩

/-! ## §3 Accounts -/

/-- `struct Account`: a position and the set of its active orders. -/
structure Account where
  /-- the number of shares owned by the account -/
  shares : Shares
  /-- the total capital the account has (funds) -/
  capital : Capital
  /-- the set of active orders for the account -/
  orders : Finset Nat
  deriving DecidableEq

namespace Account

/-- `Account(Shares shares_ = 0, Capital capital_ = 0)`. -/
def new (shares : Shares := 0) (capital : Capital := 0) : Account := ⟨shares, capital, ∅⟩

/-- `Account::limit`: record a resting order. -/
def limit (a : Account) (order : Order) : Account := { a with orders := insert order.uid a.orders }

/-- `Account::cancel`: forget an order. -/
def cancel (a : Account) (order : Order) : Account := { a with orders := a.orders.erase order.uid }

/-- `Account::fill`: a sell gives up shares for `quantity * price` of capital, a buy the
reverse; the product is taken modulo 2^64 as `uint64_t`. -/
def fill (a : Account) (side : Side) (quantity : Nat) (price : Nat) : Account :=
  match side with
  | .sell => { a with shares := a.shares - BitVec.ofNat 64 quantity,
                      capital := a.capital + BitVec.ofNat 64 (quantity * price) }
  | .buy => { a with shares := a.shares + BitVec.ofNat 64 quantity,
                     capital := a.capital - BitVec.ofNat 64 (quantity * price) }

/-- `Account::limit_fill`: the resting order `limit` is filled entirely. -/
def limitFill (a : Account) (limit _market : Order) : Account :=
  (a.cancel limit).fill limit.side limit.quantity limit.price

/-- `Account::limit_partial`: the resting order `limit` is filled by the whole `market`. -/
def limitPartial (a : Account) (limit market : Order) : Account :=
  a.fill limit.side market.quantity limit.price

/-- `Account::market_fill`: the incoming order `market` is filled entirely. -/
def marketFill (a : Account) (limit market : Order) : Account :=
  a.fill market.side market.quantity limit.price

/-- `Account::market_partial`: the incoming order takes all of the resting `limit`. -/
def marketPartial (a : Account) (limit market : Order) : Account :=
  a.fill market.side limit.quantity limit.price

@[simp] theorem fill_orders (a : Account) (s : Side) (q : Nat) (p : Nat) :
    (a.fill s q p).orders = a.orders := by cases s <;> rfl

@[simp] theorem limit_orders (a : Account) (o : Order) :
    (a.limit o).orders = insert o.uid a.orders := rfl

@[simp] theorem cancel_orders (a : Account) (o : Order) :
    (a.cancel o).orders = a.orders.erase o.uid := rfl

/-- The change `fill` makes to a balance: `shares` moves by `∓ quantity`, `capital` by
`± quantity * price`, signs by side. -/
theorem fill_shares_capital (a : Account) (s : Side) (q : Nat) (p : Nat) :
    (a.fill s q p).shares = a.shares + (match s with | .sell => -BitVec.ofNat 64 q
                                                     | .buy => BitVec.ofNat 64 q) ∧
    (a.fill s q p).capital = a.capital + (match s with | .sell => BitVec.ofNat 64 (q * p)
                                                       | .buy => -BitVec.ofNat 64 (q * p)) := by
  cases s <;> simp [fill, sub_eq_add_neg]

end Account

/-! ## §4 Callbacks -/

/-- One call of a virtual fill callback of `Account`, with the resting (`limit`) and the
incoming (`market`) order as the call sees them. -/
inductive Callback where
  | limitFill (limit market : Order)
  | limitPartial (limit market : Order)
  | marketFill (limit market : Order)
  | marketPartial (limit market : Order)
  deriving DecidableEq, Repr

namespace Callback

/-- The account whose method is called: the maker's for `limit_*`, the taker's for `market_*`. -/
def account : Callback → AccountId
  | limitFill l _ | limitPartial l _ => l.account
  | marketFill _ m | marketPartial _ m => m.account

/-- The base-class body of the callback. -/
def run : Callback → Account → Account
  | limitFill l m, a => a.limitFill l m
  | limitPartial l m, a => a.limitPartial l m
  | marketFill l m, a => a.marketFill l m
  | marketPartial l m, a => a.marketPartial l m

/-- The side the callback's `fill` books. -/
def side : Callback → Side
  | limitFill l _ | limitPartial l _ => l.side
  | marketFill _ m | marketPartial _ m => m.side

/-- The quantity the callback's `fill` books. -/
def quantity : Callback → Nat
  | limitFill l _ | marketPartial l _ => l.quantity
  | limitPartial _ m | marketFill _ m => m.quantity

/-- The price the callback's `fill` books: always the resting order's. -/
def price : Callback → Nat
  | limitFill l _ | limitPartial l _ | marketFill l _ | marketPartial l _ => l.price

/-- Every callback is one `fill` of its own side, quantity and price, after dropping the resting
order from the account's set for `limit_fill`. -/
theorem run_eq (c : Callback) (a : Account) :
    c.run a = ((match c with | limitFill l _ => a.cancel l | _ => a).fill c.side c.quantity c.price) := by
  cases c <;> rfl

/-- No callback but `limit_fill` touches the account's order set. -/
theorem run_orders (c : Callback) (a : Account) :
    (c.run a).orders = match c with | limitFill l _ => a.orders.erase l.uid | _ => a.orders := by
  cases c <;> simp [run_eq]

end Callback

end CboeEmulator.OrderEntry.LOB

import CboeEmulator.OrderEntry.LimitTree
import CboeEmulator.DataFeed.Messages

/-!
# Order-Entry Book: the Limit Order Book

`OrderEntry::LOB::LimitOrderBook` of `limit_order_book.hpp`, together with the methods of
`LimitTree<side>` that reach beyond the tree: resting an order (which also records it on its
account), canceling one, and the matching loop that fires the accounts' callbacks.

## The state

A call into the book touches the book (its two trees, the Nat map that owns every order, the
uid counter), the accounts its orders point to, and the feed the trees report to. `Engine`
holds all of them, with the callbacks fired so far (`fills`) and the feed messages sent so far
(`feed`), both in call order. The two trees are indexed by side (`trees .sell` is `sells`).

## What is modelled from the spec

`limit_tree.hpp` is not among the sources. `LimitTree.limit`, `LimitTree.cancel` and
`LimitTree.market` follow §4.2 of the spec and the observations of `test_limit_tree.cpp`:
resting an order adds it to its account; a maker filled entirely leaves its account's set
through `limit_fill`; the callbacks of a full fill see the taker before its quantity drops (a
perfect match credits the taker the whole quantity), while those of a partial fill see the
maker after its quantity drops, as §4.2 orders them. Each trade is reported to the feed as
`Trade(maker uid, maker price, quantity, taker side)`, each resting order as `AddOrder`, each
cancel as `DeleteOrder`.
-/

namespace CboeEmulator.OrderEntry.LOB

open CboeEmulator.DataFeed.Messages (Message)

/-- `typedef std::unordered_map<UID, Order> UIDOrderMap`. -/
abbrev UIDOrderMap := AList fun _ : Nat => Order

/-- `std::unordered_map::emplace`: insert unless the key is taken. -/
def UIDOrderMap.emplace (m : UIDOrderMap) (uid : Nat) (o : Order) : UIDOrderMap :=
  if uid ∈ m then m else m.insert uid o

/-- A uid a map finds is in the map. -/
theorem mem_of_lookup {β : Nat → Type} {m : AList β} {u : Nat} {o : β u}
    (h : m.lookup u = some o) : u ∈ m :=
  AList.lookup_isSome.mp (by rw [h]; rfl)

/-- The side byte a tree writes on the feed (`DataFeed::bool_to_side`). -/
def Side.toWire : Side → DataFeed.Side
  | .sell => DataFeed.boolToSide false
  | .buy => DataFeed.boolToSide true

/-- The state a call into the book reads and writes. -/
structure Engine where
  /-- `sells` and `buys` -/
  trees : Side → LimitTree
  /-- `orders`: the Nat map, owner of every order -/
  orders : UIDOrderMap
  /-- `sequence`: the next uid -/
  sequence : Nat
  /-- the accounts the orders point to -/
  accounts : AccountId → Account
  /-- the account callbacks fired so far, in order -/
  fills : List Callback
  /-- the messages handed to the feed so far, in order -/
  feed : List Message

namespace Engine

/-- `LimitOrderBook()` beside a set of accounts: no orders, `sequence(1)`. -/
def init (accounts : AccountId → Account) : Engine :=
  ⟨fun _ => LimitTree.empty, ∅, 1, accounts, [], []⟩

/-- `sells`. -/
abbrev sells (e : Engine) : LimitTree := e.trees .sell
/-- `buys`. -/
abbrev buys (e : Engine) : LimitTree := e.trees .buy

/-- A virtual fill callback, made on its account and logged. -/
def call (e : Engine) (c : Callback) : Engine :=
  { e with accounts := Function.update e.accounts c.account (c.run (e.accounts c.account)),
           fills := e.fills ++ [c] }

@[simp] theorem call_trees (e : Engine) (c : Callback) : (e.call c).trees = e.trees := rfl
@[simp] theorem call_orders (e : Engine) (c : Callback) : (e.call c).orders = e.orders := rfl
@[simp] theorem call_sequence (e : Engine) (c : Callback) : (e.call c).sequence = e.sequence := rfl
@[simp] theorem call_feed (e : Engine) (c : Callback) : (e.call c).feed = e.feed := rfl
@[simp] theorem call_fills (e : Engine) (c : Callback) : (e.call c).fills = e.fills ++ [c] := rfl

end Engine

/-! ## §1 The tree methods that reach orders, accounts and the feed -/

namespace LimitTree

/-- Modelled from the spec (§4.2 `limit(order)`; `test_limit_tree.cpp`): `trees side` takes the
order in at its price, the order's back pointer is set, its account records it, and the feed
hears `AddOrder`. -/
def limit (side : Side) (e : Engine) (o : Order) : Engine :=
  { e with
    trees := Function.update e.trees side ((e.trees side).insert side o),
    orders := e.orders.insert o.uid { o with limit := some o.price },
    accounts := Function.update e.accounts o.account ((e.accounts o.account).limit o),
    feed := e.feed ++ [.addOrder o.uid o.price o.quantity side.toWire] }

/-- Modelled from the spec (§4.2 `cancel(order)`, §4.3 `cancel`): the account forgets the
order, `trees side` splices it out, and the feed hears `DeleteOrder`. -/
def cancel (side : Side) (e : Engine) (o : Order) : Engine :=
  { e with
    trees := Function.update e.trees side ((e.trees side).remove o),
    accounts := Function.update e.accounts o.account ((e.accounts o.account).cancel o),
    feed := e.feed ++ [.deleteOrder o.uid] }

/-- Modelled from the spec (§4.2 `market`): a level at `key` of tree `side` may fill a taker with
limit price `price` unless `price` beats it; a market order has price 0 and takes any level. -/
def canMatch (side : Side) (key price : Nat) : Prop :=
  price = 0 ∨ ¬ better side price key

instance (side : Side) (key price : Nat) : Decidable (canMatch side key price) :=
  inferInstanceAs (Decidable (_ ∨ _))

/-- The taker's callback of a full fill: `market_fill` when the maker exhausts the taker,
`market_partial` when some of the taker is left. -/
def takerCallback (m o : Order) : Callback :=
  if m.quantity < o.quantity then .marketPartial m o else .marketFill m o

/-- Modelled from the spec (§4.2 `market`, first branch): the head order `m` of the best level
is filled entirely by the taker `o`. `limit_fill` and the taker's callback fire, the trade goes to
the feed, `m` leaves the tree and, through `did_fill(m.uid)`, the UID map; the taker keeps what
is left. -/
def fillMaker (side : Side) (e : Engine) (o m : Order) : Engine × Order :=
  let e' := (e.call (.limitFill m o)).call (takerCallback m o)
  ({ e' with
     trees := Function.update e.trees side ((e.trees side).remove m),
     orders := e.orders.erase m.uid,
     feed := e.feed ++ [.trade m.uid m.price m.quantity o.side.toWire] },
   { o with quantity := o.quantity - m.quantity })

/-- Modelled from the spec (§4.2 `market`, second branch): the head order `m` (queued under
`uid` in the best level at `key`) has more than the taker `o` wants. Its quantity, its level's
volume and the side's volume drop by the taker's quantity, then `limit_partial` and
`market_fill` fire; the taker is done. -/
def fillTaker (side : Side) (e : Engine) (o : Order) (uid key : Nat) (m : Order) :
    Engine × Order :=
  let m' := { m with quantity := m.quantity - o.quantity }
  let e' : Engine := { e with
    trees := Function.update e.trees side ((e.trees side).reduceVolume key o.quantity),
    orders := e.orders.insert uid m',
    feed := e.feed ++ [.trade m.uid m.price o.quantity o.side.toWire] }
  ((e'.call (.limitPartial m' o)).call (.marketFill m' o), { o with quantity := 0 })

/-- Modelled from the spec (§4.2 `market`): one round of the matching loop of tree `side`
against the taker `o`, or `none` when the loop stops: the taker is exhausted, the tree is empty,
or the best level does not match the taker's price. The round trades the head order of the best
level, at its own price, for the smaller of the two quantities. -/
def marketStep (side : Side) (e : Engine) (o : Order) : Option (Engine × Order) :=
  match (e.trees side).best with
  | none => none
  | some key =>
    if o.quantity = 0 ∨ ¬ canMatch side key o.price then none else
    match (e.trees side).find key with
    | none => none
    | some l =>
      match l.orders.head? with
      | none => none
      | some uid =>
        match e.orders.lookup uid with
        | none => none
        | some m =>
          some (if m.quantity ≤ o.quantity then fillMaker side e o m
                else fillTaker side e o uid key m)

/-- The matching loop, run for at most `fuel` rounds. -/
def marketLoop (side : Side) : Nat → Engine → Order → Engine × Order
  | 0, e, o => (e, o)
  | fuel + 1, e, o =>
    match marketStep side e o with
    | none => (e, o)
    | some (e', o') => marketLoop side fuel e' o'

/-- Modelled from the spec (§4.2 `market(order, did_fill)`): the loop with a budget of one round
per order queued in the tree, plus the round that stops it. -/
def market (side : Side) (e : Engine) (o : Order) : Engine × Order :=
  marketLoop side ((e.trees side).size + 1) e o

end LimitTree

/-! ## §2 The book -/

/-- An exception leaving a call into the book. -/
inductive BookError where
  /-- `std::out_of_range` from `orders.at(order_id)` -/
  | outOfRange
  /-- a thrown `std::string` -/
  | message (text : String)
  /-- a null `order->limit` dereferenced -/
  | nullLimit
  deriving DecidableEq, Repr

namespace LimitOrderBook

/-- The test of `limit_sell` / `limit_buy` for whether a new order at `price` crosses the best
opposite level at `key`: a sell crosses when `price <= buys.best->key`, a buy when
`price >= sells.best->key`. -/
def crosses : Side → Nat → Nat → Prop
  | .sell, key, price => price ≤ key
  | .buy, key, price => price ≥ key

instance : ∀ (side : Side) (key price : Nat), Decidable (crosses side key price)
  | .sell, key, price => inferInstanceAs (Decidable (price ≤ key))
  | .buy, key, price => inferInstanceAs (Decidable (price ≥ key))

/-- The body shared by `limit_sell` and `limit_buy`: emplace the order under `sequence`; if it
crosses the opposite best, run the opposite tree's matching loop on it (with its limit price
as the bound); if that fills it, erase it and return 0; otherwise rest it and return
`sequence++`. -/
def limitSide (side : Side) (e : Engine) (account : AccountId) (quantity : Nat)
    (price : Nat) : Nat × Engine :=
  let seq := e.sequence
  let fresh : Order := ⟨seq, side, quantity, price, none, account⟩
  let e := { e with orders := e.orders.emplace seq fresh }
  let taker := (e.orders.lookup seq).getD fresh
  let rest (e : Engine) (taker : Order) : Nat × Engine :=
    (seq, { LimitTree.limit side e taker with sequence := seq + 1 })
  match (e.trees side.not).best with
  | some key =>
    if crosses side key price then
      let (e', taker') := LimitTree.market side.not e taker
      let e' := { e' with orders := e'.orders.insert seq taker' }
      if taker'.quantity = 0 then (0, { e' with orders := e'.orders.erase seq })
      else rest e' taker'
    else rest e taker
  | none => rest e taker

/-- `limit_sell(account, quantity, price)`. -/
def limitSell (e : Engine) (account : AccountId) (quantity : Nat) (price : Nat) :
    Nat × Engine :=
  limitSide .sell e account quantity price

/-- `limit_buy(account, quantity, price)`. -/
def limitBuy (e : Engine) (account : AccountId) (quantity : Nat) (price : Nat) :
    Nat × Engine :=
  limitSide .buy e account quantity price

/-- `limit(account, side, quantity, price)`. -/
def limit (e : Engine) (account : AccountId) (side : Side) (quantity : Nat)
    (price : Nat) : Nat × Engine :=
  match side with
  | .sell => limitSell e account quantity price
  | .buy => limitBuy e account quantity price

/-- The body shared by `market_sell` and `market_buy`: an order with no price and no limit,
under the current `sequence`, runs the opposite tree's matching loop; what is left of it is
dropped. -/
def marketSide (side : Side) (e : Engine) (account : AccountId) (quantity : Nat) : Engine :=
  (LimitTree.market side.not e ⟨e.sequence, side, quantity, 0, none, account⟩).1

/-- `market_sell(account, quantity)`. -/
def marketSell (e : Engine) (account : AccountId) (quantity : Nat) : Engine :=
  marketSide .sell e account quantity

/-- `market_buy(account, quantity)`. -/
def marketBuy (e : Engine) (account : AccountId) (quantity : Nat) : Engine :=
  marketSide .buy e account quantity

/-- `market(account, side, quantity)`. -/
def market (e : Engine) (account : AccountId) (side : Side) (quantity : Nat) : Engine :=
  match side with
  | .sell => marketSell e account quantity
  | .buy => marketBuy e account quantity

/-- `limit` is the shared body of its side. -/
theorem limit_eq_limitSide (e : Engine) (account : AccountId) (side : Side) (quantity price : Nat) :
    limit e account side quantity price = limitSide side e account quantity price := by
  cases side <;> rfl

/-- `market` is the shared body of its side. -/
theorem market_eq_marketSide (e : Engine) (account : AccountId) (side : Side) (quantity : Nat) :
    market e account side quantity = marketSide side e account quantity := by
  cases side <;> rfl

/-- `has(order_id)`. -/
def has (e : Engine) (uid : Nat) : Bool := uid ∈ e.orders

theorem has_of_lookup {e : Engine} {uid : Nat} {o : Order} (h : e.orders.lookup uid = some o) :
    has e uid = true :=
  decide_eq_true (mem_of_lookup h)

theorem has_of_lookup_eq_none {e : Engine} {uid : Nat} (h : e.orders.lookup uid = none) :
    has e uid = false :=
  decide_eq_false (AList.lookup_eq_none.mp h)

/-- `get(order_id)`: `orders.at(order_id)`, which throws `std::out_of_range` for an absent uid. -/
def get (e : Engine) (uid : Nat) : Except BookError Order :=
  match e.orders.lookup uid with
  | none => .error .outOfRange
  | some o => .ok o

/-- `cancel(order_id)`: cancel the order in the tree of its side, then erase it from the map. -/
def cancel (e : Engine) (uid : Nat) : Except BookError Engine :=
  match e.orders.lookup uid with
  | none => .error .outOfRange
  | some o =>
    let e' := LimitTree.cancel o.side e o
    .ok { e' with orders := e'.orders.erase uid }

/-- `reduce(order_id, quantity)`: refuse to take more than the order has; take `quantity` off the
order, its level's volume and its side's volume; cancel and erase the order if nothing is left. -/
def reduce (e : Engine) (uid : Nat) (quantity : Nat) : Except BookError Engine :=
  match e.orders.lookup uid with
  | none => .error .outOfRange
  | some o =>
    if quantity > o.quantity then
      .error (.message ("trying to remove " ++ toString quantity ++ " from order with " ++
        toString o.quantity ++ " available!"))
    else
      match o.limit with
      | none => .error .nullLimit
      | some key =>
        let o' := { o with quantity := o.quantity - quantity }
        let e' := { e with
                    trees := Function.update e.trees o.side
                      ((e.trees o.side).reduceVolume key quantity),
                    orders := e.orders.insert uid o' }
        if o'.quantity = 0 then
          let e'' := LimitTree.cancel o.side e' o'
          .ok { e'' with orders := e''.orders.erase uid }
        else .ok e'

/-- `clear()`: clear both trees and the map, and reset the uid counter. The accounts are not
told. -/
def clear (e : Engine) : Engine :=
  { e with trees := fun s => (e.trees s).clear, orders := ∅, sequence := 1 }

/-- `best_sell()`: 0 when there is no sell. -/
def bestSell (e : Engine) : Nat := e.sells.best.getD 0

/-- `best_buy()`: 0 when there is no buy. -/
def bestBuy (e : Engine) : Nat := e.buys.best.getD 0

/-- `count_sell()` / `count_buy()`, by side. -/
def countSide (e : Engine) (side : Side) : Nat := (e.trees side).count

/-- `volume_sell()` / `volume_buy()`, by side. -/
def volumeSide (e : Engine) (side : Side) : Nat := (e.trees side).volume

end LimitOrderBook

end CboeEmulator.OrderEntry.LOB

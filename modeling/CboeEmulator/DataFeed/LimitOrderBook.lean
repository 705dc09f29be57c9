import CboeEmulator.OrderEntry.LimitOrderBook

/-!
# Market-Data Feed: the Mirror Book

`DataFeed::LOB::LimitOrderBook` of `data_feed/limit_order_book/limit_order_book.hpp`: the book a
`Receiver` rebuilds from the feed. It holds two trees and an order map like the order-entry book,
but no accounts, no callbacks, no feed of its own and no uid counter: every call names the uid the
feed gave the order.

## What is modelled from the spec

The data feed's `limit_tree.hpp` is not among the sources either. Its `LimitTree<side>` is the
side book of spec §4.1–§4.2 that the order-entry book also uses, so the levels, the cached best
and the side totals are the `LimitTree` of `OrderEntry.LimitTree`. The tree methods that take an
order (`limit`, `cancel`, `market`) are repeated here on the data feed's `Order`, which has no
account: `market` fills the head of the best level as the order-entry loop does, and erases each
maker it fills entirely through `did_fill`, which `limit_sell` / `limit_buy` pass as
`orders.erase(uid)`.

## Representation

- `structures.hpp` of the data feed declares `Side` and `Limit` as the order-entry book does;
  they are the same types here.
- `LimitTree<side>::last_best_price`, which no call of this book reads, is left out.
- The taker of `limit_sell` / `limit_buy` is `orders.at(order_id)`, worked on in place by the
  loop; here it is carried through the loop by value and written back under its uid.
-/

namespace CboeEmulator.DataFeed

/-- `side_to_LOB_side`: `static_cast<LOB::Side>(side_to_bool(side))`. -/
def sideToLOBSide (side : Side) : OrderEntry.LOB.Side :=
  if sideToBool side then .buy else .sell

/-- The side byte a tree writes on the feed reads back as its side. -/
@[simp] theorem sideToLOBSide_toWire (side : OrderEntry.LOB.Side) :
    sideToLOBSide side.toWire = side := by
  cases side <;> rfl

namespace LOB

open OrderEntry.LOB (BookError)

/-- `enum class Side : bool { Sell = false, Buy = true }`. -/
abbrev Side := OrderEntry.LOB.Side

/-- `struct Limit`: one price level, its FIFO given by uids. -/
abbrev Limit := OrderEntry.LOB.Limit

/-- `LimitTree<side>`: the side book of spec §4.1, without `last_best_price`. -/
abbrev LimitTree := OrderEntry.LOB.LimitTree

/-- `struct Order` of the data feed: the intrusive links are the FIFO of its level, `limit` is
the key of that level (`none` for `nullptr`). -/
structure Order where
  /-- the day-unique ID for this particular order -/
  uid : Nat
  /-- whether the order is a buy or a sell -/
  side : Side
  /-- the number of shares in the order -/
  quantity : Nat
  /-- the limit price for the order (market price if market order) -/
  price : Nat
  /-- the limit this order falls under -/
  limit : Option Nat
  deriving DecidableEq, Repr

/-- `explicit Limit(Order* order)`: a level holding one order. -/
def Limit.ofOrder (o : Order) : Limit := ⟨o.price, 1, o.quantity, [o.uid]⟩

/-- `typedef std::unordered_map<UID, Order> UIDOrderMap`. -/
abbrev UIDOrderMap := AList fun _ : Nat => Order

/-- `std::unordered_map::emplace`: insert unless the key is taken. -/
def UIDOrderMap.emplace (m : UIDOrderMap) (uid : Nat) (o : Order) : UIDOrderMap :=
  if uid ∈ m then m else m.insert uid o

/-- `class LimitOrderBook`: `sells` and `buys` indexed by side, and the map of orders. -/
structure LimitOrderBook where
  /-- `sells` and `buys` -/
  trees : Side → LimitTree
  /-- `orders`: the map of order IDs to orders -/
  orders : UIDOrderMap

/-! ## §1 The tree methods -/

namespace LimitTree

open OrderEntry.LOB (updateLimit eraseLimit insertLimit setBest)

/-- Modelled from the spec (§4.2, `limit(order)`): append the order to the level at its price,
creating the level (and moving `best`) when there is none, and add it to the side totals. -/
def insert (side : Side) (t : LimitTree) (o : Order) : LimitTree :=
  match t.find o.price with
  | some _ =>
    { t with limits := updateLimit o.price (·.append o.uid o.quantity) t.limits,
             count := t.count + 1, volume := t.volume + o.quantity }
  | none =>
    { limits := insertLimit side (Limit.ofOrder o) t.limits,
      best := setBest side t.best o.price,
      count := t.count + 1, volume := t.volume + o.quantity }

/-- Modelled from the spec (§4.1, §4.2, `cancel(order)`): splice the order out of the level its
back pointer names; when the level's count reaches 0 erase the level, and if it was the best one
take the new extremum; take the order off the side totals. -/
def remove (t : LimitTree) (o : Order) : LimitTree :=
  match o.limit with
  | none => t
  | some key =>
    match t.find key with
    | none => t
    | some l =>
      let l' := l.splice o.uid o.quantity
      if l'.count = 0 then
        let ls := eraseLimit key t.limits
        { limits := ls,
          best := if t.best = some key then ls.head?.map (·.key) else t.best,
          count := t.count - 1, volume := t.volume - o.quantity }
      else
        { t with limits := updateLimit key (fun _ => l') t.limits,
                 count := t.count - 1, volume := t.volume - o.quantity }

/-- Modelled from the spec (§4.2 `limit(order)`): `trees side` takes the order in at its price and
the order's back pointer is set. -/
def limit (side : Side) (b : LimitOrderBook) (o : Order) : LimitOrderBook :=
  { trees := Function.update b.trees side ((b.trees side).insert side o),
    orders := b.orders.insert o.uid { o with limit := some o.price } }

/-- Modelled from the spec (§4.2 `cancel(order)`): `trees side` splices the order out. -/
def cancel (side : Side) (b : LimitOrderBook) (o : Order) : LimitOrderBook :=
  { b with trees := Function.update b.trees side ((b.trees side).remove o) }

/-- Modelled from the spec (§4.2 `market(order, did_fill)`): one round of the matching loop of
tree `side` against the taker `o`, as in the order-entry book, or `none` when the loop stops. A
maker filled entirely leaves the tree and, through `did_fill`, the map; a larger maker loses the
taker's quantity, from its level's volume and the side's too. -/
def marketStep (side : Side) (b : LimitOrderBook) (o : Order) :
    Option (LimitOrderBook × Order) :=
  match (b.trees side).best with
  | none => none
  | some key =>
    if o.quantity = 0 ∨ ¬ OrderEntry.LOB.LimitTree.canMatch side key o.price then none else
    match (b.trees side).find key with
    | none => none
    | some l =>
      match l.orders.head? with
      | none => none
      | some uid =>
        match b.orders.lookup uid with
        | none => none
        | some m =>
          some (if m.quantity ≤ o.quantity then
              ({ trees := Function.update b.trees side ((b.trees side).remove m),
                 orders := b.orders.erase m.uid },
               { o with quantity := o.quantity - m.quantity })
            else
              ({ trees := Function.update b.trees side
                   ((b.trees side).reduceVolume key o.quantity),
                 orders := b.orders.insert uid { m with quantity := m.quantity - o.quantity } },
               { o with quantity := 0 }))

/-- The matching loop, run for at most `fuel` rounds. -/
def marketLoop (side : Side) : Nat → LimitOrderBook → Order → LimitOrderBook × Order
  | 0, b, o => (b, o)
  | fuel + 1, b, o =>
    match marketStep side b o with
    | none => (b, o)
    | some (b', o') => marketLoop side fuel b' o'

/-- Modelled from the spec (§4.2 `market(order, did_fill)`): the loop with a budget of one round
per order queued in the tree, plus the round that stops it. -/
def market (side : Side) (b : LimitOrderBook) (o : Order) : LimitOrderBook × Order :=
  marketLoop side ((b.trees side).size + 1) b o

end LimitTree

/-! ## §2 The book -/

namespace LimitOrderBook

open OrderEntry.LOB.LimitOrderBook (crosses)

/-- `LimitOrderBook()`: both trees and the map empty. -/
def init : LimitOrderBook := ⟨fun _ => OrderEntry.LOB.LimitTree.empty, ∅⟩

/-- `clear()`: clear both trees and the map. -/
def clear (b : LimitOrderBook) : LimitOrderBook := ⟨fun s => (b.trees s).clear, ∅⟩

/-- The body shared by `limit_sell` and `limit_buy`: emplace the order under `order_id`; if it
crosses the opposite best (the order-entry book's test), run the opposite tree's matching loop
on it; if that fills it, erase it; otherwise rest it. -/
def limitSide (side : Side) (b : LimitOrderBook) (orderId quantity price : Nat) :
    LimitOrderBook :=
  let fresh : Order := ⟨orderId, side, quantity, price, none⟩
  let b := { b with orders := b.orders.emplace orderId fresh }
  let taker := (b.orders.lookup orderId).getD fresh
  match (b.trees side.not).best with
  | some key =>
    if crosses side key price then
      let (b', taker') := LimitTree.market side.not b taker
      let b' := { b' with orders := b'.orders.insert orderId taker' }
      if taker'.quantity = 0 then { b' with orders := b'.orders.erase orderId }
      else LimitTree.limit side b' taker'
    else LimitTree.limit side b taker
  | none => LimitTree.limit side b taker

/-- `limit_sell(order_id, quantity, price)`. -/
def limitSell (b : LimitOrderBook) (orderId quantity price : Nat) : LimitOrderBook :=
  limitSide .sell b orderId quantity price

/-- `limit_buy(order_id, quantity, price)`. -/
def limitBuy (b : LimitOrderBook) (orderId quantity price : Nat) : LimitOrderBook :=
  limitSide .buy b orderId quantity price

/-- `limit(side, order_id, quantity, price)`. -/
def limit (b : LimitOrderBook) (side : Side) (orderId quantity price : Nat) : LimitOrderBook :=
  match side with
  | .sell => limitSell b orderId quantity price
  | .buy => limitBuy b orderId quantity price

/-- `has(order_id)`. -/
def has (b : LimitOrderBook) (orderId : Nat) : Bool := orderId ∈ b.orders

/-- `cancel(order_id)`: cancel the order in the tree of its side, then erase it from the map;
`orders.at` throws `std::out_of_range` for an absent uid. -/
def cancel (b : LimitOrderBook) (orderId : Nat) : Except BookError LimitOrderBook :=
  match b.orders.lookup orderId with
  | none => .error .outOfRange
  | some o =>
    let b' := LimitTree.cancel o.side b o
    .ok { b' with orders := b'.orders.erase orderId }

/-- `reduce(order_id, quantity)`: refuse to take more than the order has; take `quantity` off the
order, its level's volume and its side's volume; cancel and erase the order if nothing is left. -/
def reduce (b : LimitOrderBook) (orderId quantity : Nat) : Except BookError LimitOrderBook :=
  match b.orders.lookup orderId with
  | none => .error .outOfRange
  | some o =>
    if quantity > o.quantity then
      .error (.message ("trying to remove " ++ toString quantity ++ " from order with " ++
        toString o.quantity ++ " available!"))
    else
      match o.limit with
      | none => .error .nullLimit
      | some key =>
        let o' := { o with quantity := o.quantity - quantity }
        let b' : LimitOrderBook :=
          { trees := Function.update b.trees o.side ((b.trees o.side).reduceVolume key quantity),
            orders := b.orders.insert orderId o' }
        if o'.quantity = 0 then
          let b'' := LimitTree.cancel o.side b' o'
          .ok { b'' with orders := b''.orders.erase orderId }
        else .ok b'

/-- The body shared by `market_sell` and `market_buy`: an order with no price, outside the map,
runs the opposite tree's matching loop; what is left of it is dropped. -/
def marketSide (side : Side) (b : LimitOrderBook) (orderId quantity : Nat) : LimitOrderBook :=
  (LimitTree.market side.not b ⟨orderId, side, quantity, 0, none⟩).1

/-- `market(side, order_id, quantity)`, through `market_sell` / `market_buy`. -/
def market (b : LimitOrderBook) (side : Side) (orderId quantity : Nat) : LimitOrderBook :=
  marketSide side b orderId quantity

/-! ## §3 Equations -/

section Equations

variable {b : LimitOrderBook} {side : Side} {orderId quantity price : Nat}

/-- `limit` is the shared body of its side. -/
theorem limit_eq_limitSide : limit b side orderId quantity price =
    limitSide side b orderId quantity price := by
  cases side <;> rfl

/-- An order new to the map that crosses nothing rests, as the feed gave it. -/
theorem limitSide_of_not_crosses (hu : orderId ∉ b.orders)
    (hc : ∀ key, (b.trees side.not).best = some key → ¬ crosses side key price) :
    limitSide side b orderId quantity price =
      LimitTree.limit side { b with orders := (b.orders.insert orderId
        ⟨orderId, side, quantity, price, none⟩) } ⟨orderId, side, quantity, price, none⟩ := by
  simp only [limitSide, UIDOrderMap.emplace, if_neg hu, AList.lookup_insert, Option.getD_some]
  split
  case h_1 key hb => rw [if_neg (hc key hb)]
  case h_2 => rfl

/-- `cancel` of an order the map holds. -/
theorem cancel_of_lookup {o : Order} (ho : b.orders.lookup orderId = some o) :
    cancel b orderId =
      .ok ⟨Function.update b.trees o.side ((b.trees o.side).remove o), b.orders.erase orderId⟩ := by
  simp [cancel, ho, LimitTree.cancel]

/-- `reduce` of an order the map holds with its back pointer set, by no more than it has. -/
theorem reduce_of_lookup {o : Order} {key : Nat} (ho : b.orders.lookup orderId = some o)
    (hq : quantity ≤ o.quantity) (hk : o.limit = some key) :
    reduce b orderId quantity =
      if o.quantity - quantity = 0 then
        .ok ⟨Function.update b.trees o.side (LimitTree.remove
                ((b.trees o.side).reduceVolume key quantity) { o with quantity := 0 }),
              (b.orders.insert orderId { o with quantity := 0 }).erase orderId⟩
      else
        .ok ⟨Function.update b.trees o.side ((b.trees o.side).reduceVolume key quantity),
              b.orders.insert orderId { o with quantity := o.quantity - quantity }⟩ := by
  simp only [reduce, ho, if_neg (Nat.not_lt.mpr hq), hk, LimitTree.cancel, Function.update_same,
    Function.update_idem]
  split
  case isTrue h0 => simp only [h0, if_true]
  case isFalse h0 => simp only [h0, if_false]

end Equations

end LimitOrderBook

end LOB

end CboeEmulator.DataFeed

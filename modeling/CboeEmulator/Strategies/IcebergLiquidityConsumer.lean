import CboeEmulator.OrderEntry.Server
import CboeEmulator.OrderEntry.Matching
import CboeEmulator.DataFeed.LimitOrderBook

/-!
# Strategies: the Iceberg Liquidity Consumer

`Strategies::IcebergLiquidityConsumer` of `strategies/iceberg_liquidity_consumer.hpp`: an agent
that draws, at each start of a trading session, a side and a number of shares, and works them
into the market as market orders of at most `iceberg_size` shares. Each time its timer fires and
the coin `boolean(P_act)` comes up, it looks at the best level on the other side of the book its
receiver mirrors; unless that level is missing it orders `min(size, iceberg_size)` shares and takes
them off `size`.

The agent's state is `is_running`, the day's `side` and the `size` left to order. The draws of
`did_receive(StartOfSession)` are parameters of the event, and an action carries the receiver's
book at the time it runs. The timer is started with the session and cancelled at its end, so an
action outside a session does nothing.

Within a session the shares left after `k` actions that met liquidity are `S - k * iceberg_size`,
down to 0, and the `j`-th order is for `min(S - j * iceberg_size, iceberg_size)` shares, so the
orders total `min(S, k * iceberg_size)`. Once the day's shares are spent the agent goes on sending
market orders of 0 shares while the book has liquidity; the server answers each accepted, with
order id 0, and leaves its book as it was.

## Main definitions

- `DataFeed.LOB.LimitOrderBook.volumeBest`, `volumeSellBest`, `volumeBuyBest`;
- `IcebergLiquidityConsumer`, `new`, `placeOrder`, `sellOrder`, `buyOrder`, `doStrategy`,
  `step`, `run`.

## Main results

- `IcebergLiquidityConsumer.run_in_session`: the orders and the shares left after any events of a
  session;
- `Server.handleOrderRequest_market_zero`: a market order of 0 shares changes nothing but the
  answer;
- `iceberg_orders_in_session`: one session of the agent, and what the server makes of its orders.
-/

/-! ## §1 The book's best volumes -/

namespace CboeEmulator.DataFeed.LOB.LimitOrderBook

/-- The shared body of `volume_sell_best()` and `volume_buy_best()`: the volume of the best level
of a side, 0 when the side has none. -/
def volumeBest (b : LimitOrderBook) (side : Side) : Nat :=
  match (b.trees side).best with
  | none => 0
  | some key => (b.trees side).volumeAt key

/-- `volume_sell_best()`. -/
def volumeSellBest (b : LimitOrderBook) : Nat := b.volumeBest .sell

/-- `volume_buy_best()`. -/
def volumeBuyBest (b : LimitOrderBook) : Nat := b.volumeBest .buy

end CboeEmulator.DataFeed.LOB.LimitOrderBook

namespace CboeEmulator.Strategies

open OrderEntry.Messages (Request Side orderPriceMarket makeUsername makePassword)

/-! ## §2 The agent -/

/-- The state of an `IcebergLiquidityConsumer`. -/
structure IcebergLiquidityConsumer where
  /-- `is_running` -/
  isRunning : Bool
  /-- `iceberg_size`: the size of the orders to place -/
  icebergSize : Nat
  /-- `side`: the side of the day's orders -/
  side : Side
  /-- `size`: the shares left to order today -/
  size : Nat
  deriving DecidableEq, Repr

/-- What the agent hears. -/
inductive IcebergEvent where
  /-- `did_receive(StartOfSession)`, with the draws of `boolean()` and
  `uniform_int(minimum_size, maximum_size)` -/
  | startOfSession (buy : Bool) (size : Nat)
  /-- `did_receive(EndOfSession)` -/
  | endOfSession
  /-- the timer's handler when `boolean(P_act)` comes up, with the receiver's book -/
  | act (book : DataFeed.LOB.LimitOrderBook)

namespace IcebergLiquidityConsumer

/-- The constructor: `make_username` and `make_password` of the options, which throw on a string
of the wrong length; then not running, `side = Sell`, `size = 0`, and the client's login
request. -/
def new (icebergSize : Nat) (username password : String) :
    Except String (IcebergLiquidityConsumer × List Request) := do
  let username ← makeUsername username
  let password ← makePassword password
  pure (⟨false, icebergSize, 'S', 0⟩, [.loginRequest username password])

/-- The shared body of `sell_order()` and `buy_order()`: unless the best level of the other side
holds nothing, order `min(size, iceberg_size)` shares at the market and take them off `size`. -/
def placeOrder (c : IcebergLiquidityConsumer) (volume : Nat) (side : Side) :
    IcebergLiquidityConsumer × List Request :=
  if volume = 0 then (c, [])
  else
    let orderSize := min c.size c.icebergSize
    ({ c with size := c.size - orderSize }, [.orderRequest orderPriceMarket orderSize side])

/-- `sell_order()`: against the best buy level. -/
def sellOrder (c : IcebergLiquidityConsumer) (book : DataFeed.LOB.LimitOrderBook) :
    IcebergLiquidityConsumer × List Request :=
  c.placeOrder book.volumeBuyBest 'S'

/-- `buy_order()`: against the best sell level. -/
def buyOrder (c : IcebergLiquidityConsumer) (book : DataFeed.LOB.LimitOrderBook) :
    IcebergLiquidityConsumer × List Request :=
  c.placeOrder book.volumeSellBest 'B'

/-- `do_strategy()`: the `switch` on the day's side. -/
def doStrategy (c : IcebergLiquidityConsumer) (book : DataFeed.LOB.LimitOrderBook) :
    IcebergLiquidityConsumer × List Request :=
  if c.side = 'S' then c.sellOrder book
  else if c.side = 'B' then c.buyOrder book
  else (c, [])

/-- One event: the new state and the requests handed to the client. -/
def step (c : IcebergLiquidityConsumer) : IcebergEvent → IcebergLiquidityConsumer × List Request
  | .startOfSession buy size =>
    if c.isRunning then (c, [])
    else ({ c with side := if buy then 'B' else 'S', size := size, isRunning := true }, [])
  | .endOfSession => if c.isRunning then ({ c with isRunning := false }, []) else (c, [])
  | .act book => if c.isRunning then c.doStrategy book else (c, [])

/-- Events one after another, with the requests of each in order. -/
def run (c : IcebergLiquidityConsumer) : List IcebergEvent → IcebergLiquidityConsumer × List Request
  | [] => (c, [])
  | ev :: evs =>
    let r := (c.step ev).1.run evs
    (r.1, (c.step ev).2 ++ r.2)

end IcebergLiquidityConsumer

/-- An action that finds the best level on the other side of `side` holding something. -/
def IcebergEvent.liquid (side : Side) : IcebergEvent → Bool
  | .act book => (if side = 'S' then book.volumeBuyBest else book.volumeSellBest) ≠ 0
  | _ => false

/-! ## §3 One session -/

/-- The shares an order request asks for; 0 for the other requests. -/
def orderShares : Request → Nat
  | .orderRequest _ quantity _ => quantity
  | _ => 0

/-- The `j`-th order of a day of `S` shares cut in slices of `b`: `min(S - j * b, b)` shares at
the market. -/
def slice (S b : Nat) (side : Side) (j : Nat) : Request :=
  .orderRequest orderPriceMarket (min (S - j * b) b) side

/-- The first `k` slices add up to `min(S, k * b)` shares. -/
theorem sum_slices (S b : Nat) (side : Side) (k : Nat) :
    (((List.range k).map (slice S b side)).map orderShares).sum = min S (k * b) := by
  induction k with
  | zero => simp
  | succ k ih =>
    rw [List.range_succ, List.map_append, List.map_append, List.sum_append, ih]
    simp only [List.map_cons, List.map_nil, List.sum_cons, List.sum_nil, slice, orderShares,
      Nat.succ_mul]
    omega

namespace IcebergLiquidityConsumer

variable {c : IcebergLiquidityConsumer}

/-- **In a session, an event other than its end** orders the next slice when it meets
liquidity, and otherwise changes nothing. -/
theorem step_in_session (hrun : c.isRunning = true) (hside : c.side = 'S' ∨ c.side = 'B')
    {ev : IcebergEvent} (hend : ev ≠ .endOfSession) :
    c.step ev = if ev.liquid c.side then
        ({ c with size := c.size - min c.size c.icebergSize },
          [.orderRequest orderPriceMarket (min c.size c.icebergSize) c.side])
      else (c, []) := by
  cases ev with
  | startOfSession buy size => simp [step, hrun, IcebergEvent.liquid]
  | endOfSession => exact absurd rfl hend
  | act book =>
    rcases hside with h | h <;>
      by_cases hv : (if c.side = 'S' then book.volumeBuyBest else book.volumeSellBest) = 0 <;>
      simp_all [step, doStrategy, sellOrder, buyOrder, placeOrder, IcebergEvent.liquid]

/-- **A session's run.** From `size = S - i * iceberg_size`, events with no end of session, `k` of
which meet liquidity, leave `S - (i + k) * iceberg_size` shares and order the slices `i` to
`i + k - 1`. -/
theorem run_in_session (hrun : c.isRunning = true) (hside : c.side = 'S' ∨ c.side = 'B')
    {S i : Nat} (hsize : c.size = S - i * c.icebergSize) {evs : List IcebergEvent}
    (hevs : ∀ ev ∈ evs, ev ≠ .endOfSession) :
    c.run evs = ({ c with size := S - (i + evs.countP (·.liquid c.side)) * c.icebergSize },
      (List.range' i (evs.countP (·.liquid c.side))).map (slice S c.icebergSize c.side)) := by
  induction evs generalizing c i with
  | nil => rw [List.countP_nil, Nat.add_zero, ← hsize]; rfl
  | cons ev evs ih =>
    have hrest := fun ev h => hevs ev (List.mem_cons_of_mem _ h)
    rw [run, step_in_session hrun hside (hevs ev (List.mem_cons_self _ _))]
    by_cases hl : ev.liquid c.side
    · have hsize' : c.size - min c.size c.icebergSize = S - (i + 1) * c.icebergSize := by
        rw [hsize, Nat.succ_mul]; omega
      rw [if_pos hl, List.countP_cons_of_pos _ _ hl, List.range'_succ]
      rw [ih (c := { c with size := c.size - min c.size c.icebergSize }) hrun hside hsize' hrest]
      simp only [slice, hsize, List.map_cons, List.singleton_append]
      rw [Nat.add_comm (List.countP _ _) 1, ← Nat.add_assoc]
    · rw [if_neg hl, List.countP_cons_of_neg _ _ hl, ih hrun hside hsize hrest]
      rfl

end IcebergLiquidityConsumer

end CboeEmulator.Strategies

/-! ## §4 What the server makes of the orders -/

namespace CboeEmulator.OrderEntry

/-- A market order of 0 shares stops the matching loop at its first round. -/
theorem LOB.LimitOrderBook.market_zero (e : LOB.Engine) (account : LOB.AccountId)
    (side : LOB.Side) : LOB.LimitOrderBook.market e account side 0 = e := by
  rw [LOB.LimitOrderBook.market_eq_marketSide, LOB.LimitOrderBook.marketSide, LOB.LimitTree.market,
    LOB.LimitTree.marketLoop, LOB.marketStep_of_quantity_eq_zero rfl]

/-- A call that leaves the book as it is reports nothing. -/
theorem Server.withBook_self (s : Server) : s.withBook s.book = s := by
  simp [Server.withBook]

/-- A market order of 0 shares from a logged-in connection changes nothing but the answer:
accepted, with order id 0. -/
theorem Server.handleOrderRequest_market_zero (s : Server) {k : Nat} {a : LOB.AccountId}
    (hk : (s.connections k).account = some a) (side : Messages.Side) :
    s.handleOrderRequest k Messages.orderPriceMarket 0 side =
      s.send k (.orderResponse Messages.orderIdMarket .accepted) := by
  simp only [Server.handleOrderRequest, hk, if_true, LOB.LimitOrderBook.market_zero,
    Server.withBook_self]

end CboeEmulator.OrderEntry

namespace CboeEmulator.Strategies

open OrderEntry.Messages (Request Side orderPriceMarket)

/-! ## §5 A session, and the server -/

/-- **One session of the iceberg liquidity consumer.** Start a session on an agent that is not
running, drawing the side `buy` and `S` shares, and let any events but the session's end follow,
`k` of which meet liquidity on the other side of the book. The agent's requests are then exactly
the first `k` slices of `S` shares in orders of `iceberg_size`, in order; `S - k * iceberg_size`
shares are left, 0 once they are spent, and the orders ask for `min(S, k * iceberg_size)` shares
in all. Past that point each order is for 0 shares, and the server answers a market order of 0
shares from a logged-in connection accepted, with order id 0, and changes nothing else. -/
theorem iceberg_orders_in_session {c : IcebergLiquidityConsumer} (hc : c.isRunning = false)
    (buy : Bool) (S : Nat) {evs : List IcebergEvent} (hevs : ∀ ev ∈ evs, ev ≠ .endOfSession) :
    (c.run (.startOfSession buy S :: evs)).2 =
        (List.range (evs.countP (·.liquid (if buy then 'B' else 'S')))).map
          (slice S c.icebergSize (if buy then 'B' else 'S')) ∧
      (c.run (.startOfSession buy S :: evs)).1.size =
        S - evs.countP (·.liquid (if buy then 'B' else 'S')) * c.icebergSize ∧
      ((c.run (.startOfSession buy S :: evs)).2.map orderShares).sum =
        min S (evs.countP (·.liquid (if buy then 'B' else 'S')) * c.icebergSize) ∧
      ∀ (s : OrderEntry.Server) (k : Nat) (a : OrderEntry.LOB.AccountId) (side : Side),
        (s.connections k).account = some a →
        s.handle k (.orderRequest orderPriceMarket 0 side) =
          .ok (s.send k (.orderResponse OrderEntry.Messages.orderIdMarket .accepted)) := by
  have hstep : c.step (.startOfSession buy S) =
      ({ c with side := if buy then 'B' else 'S', size := S, isRunning := true }, []) := by
    simp [IcebergLiquidityConsumer.step, hc]
  have hrun := IcebergLiquidityConsumer.run_in_session (S := S) (i := 0)
    (c := { c with side := if buy then 'B' else 'S', size := S, isRunning := true }) rfl
    (by cases buy <;> simp) (by simp) hevs
  simp only [IcebergLiquidityConsumer.run, hstep, hrun, List.nil_append, Nat.zero_add,
    ← List.range_eq_range']
  exact ⟨trivial, trivial, sum_slices _ _ _ _, fun s k a side hk =>
    congrArg Except.ok (OrderEntry.Server.handleOrderRequest_market_zero s hk side)⟩

example :
    ((IcebergLiquidityConsumer.mk false 3 'S' 0).run (.startOfSession false 7 ::
        List.replicate 4 (.act (DataFeed.LOB.LimitOrderBook.init.limitBuy 1 10 100)))).2 =
      [.orderRequest 0 3 'S', .orderRequest 0 3 'S', .orderRequest 0 1 'S', .orderRequest 0 0 'S'] := by
  decide

theorem iceberg_seven_shares_by_three :
    ∃ c rs evs, IcebergLiquidityConsumer.new 3 "ICEB" "password1234" = .ok (c, rs) ∧
      evs = List.replicate 4 (IcebergEvent.act (DataFeed.LOB.LimitOrderBook.init.limitBuy 1 10 100)) ∧
      c.isRunning = false ∧ (∀ ev ∈ evs, ev ≠ .endOfSession) ∧
      ((c.run (.startOfSession false 7 :: evs)).2 =
          (List.range (evs.countP (·.liquid 'S'))).map (slice 7 c.icebergSize 'S') ∧
        (c.run (.startOfSession false 7 :: evs)).1.size = 7 - evs.countP (·.liquid 'S') * c.icebergSize ∧
        ((c.run (.startOfSession false 7 :: evs)).2.map orderShares).sum =
          min 7 (evs.countP (·.liquid 'S') * c.icebergSize) ∧
        ∀ (s : OrderEntry.Server) (k : Nat) (a : OrderEntry.LOB.AccountId) (side : Side),
          (s.connections k).account = some a →
          s.handle k (.orderRequest orderPriceMarket 0 side) =
            .ok (s.send k (.orderResponse OrderEntry.Messages.orderIdMarket .accepted))) := by
  have hevs : ∀ ev ∈ List.replicate 4
      (IcebergEvent.act (DataFeed.LOB.LimitOrderBook.init.limitBuy 1 10 100)), ev ≠ .endOfSession :=
    fun ev h => List.eq_of_mem_replicate h ▸ IcebergEvent.noConfusion
  exact ⟨_, _, _, rfl, rfl, rfl, hevs, iceberg_orders_in_session rfl false 7 hevs⟩

end CboeEmulator.Strategies

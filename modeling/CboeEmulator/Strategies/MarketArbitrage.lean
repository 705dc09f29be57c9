import CboeEmulator.Venue
import CboeEmulator.Quotes

/-!
# Strategies: Market Arbitrage

`Strategies::MarketArbitrage` of `strategies/market_arbitrage.hpp`: an agent that watches two
markets, `A` and `B`, through a receiver of each one's feed, and holds a client on each one's
order-entry port. When the last of the two sessions opens it starts a timer, and each time the
timer fires and the coin `boolean(P_act)` comes up it runs `do_strategy()`: if `A` sells below
what `B` buys, less the spread, it buys `size` shares at the market on `A` and sells them on `B`;
else if `B` sells below what `A` buys, the other way round. When either session closes it stops.

`main` runs both receivers, both clients and the timer on one `asio` context, so the handlers run
one at a time, in any order the two feeds and the timer deliver. Each receiver updates its book
and its session flag before it calls the agent's `did_receive`.

## Main definitions

- `Market`, `MarketArbitrage`, `ArbitrageEvent`;
- `MarketArbitrage.new`, `didReceiveStartOfSession`, `didReceiveEndOfSession`, `didReceive`,
  `doStrategy`, `step`, `run`;
- `packetsOf`: the packets of one market among the agent's events;
- `MarketArbitrage.swap`: the agent with the markets named the other way round.

## Main results

- `MarketArbitrage.Running.didReceive`: each packet keeps the agent running exactly while both
  its receivers see a session;
- `arbitrage_runs_while_both_sessions`: fed the two venues' feeds in any interleaving, the agent
  mirrors both books and runs exactly while both venues' command lines hold a session;
- `doesCross_exclusive`: between mirrors of two books that keep their invariant at most one
  direction crosses;
- `arbitrage_markets_interchangeable`: after the agent has read two venues' feeds, naming the
  markets the other way round swaps the orders and changes nothing else.

## Representation

- The draw of `boolean(P_act)` is a parameter of the timer's event. The timer is started with the
  strategy and cancelled when it stops, so a timer event while the agent is not running does
  nothing. `timer.cancel()` is taken to act at once: a handler that `asio` has already queued
  when the session ends, and that would still run once, is left out.
- The `std::cerr` lines of `did_receive` and the handlers for book messages, which do nothing,
  are left out; so are the clients' handling of their responses, which `do_strategy` does not
  read.
-/

namespace CboeEmulator.Strategies

open DataFeed (Receiver Replays)
open DataFeed.Messages (Message)
open OrderEntry (Venue)
open OrderEntry.Messages (Request orderPriceMarket makeUsername makePassword)

/-! ## §1 The agent -/

/-- The two markets. -/
inductive Market where
  | a
  | b
  deriving DecidableEq, Repr

/-- The other market. -/
def Market.other : Market → Market
  | .a => .b
  | .b => .a

/-- The state of a `MarketArbitrage`. -/
structure MarketArbitrage where
  /-- `receiverA`: the feed of market `A` -/
  receiverA : Receiver
  /-- `receiverB`: the feed of market `B` -/
  receiverB : Receiver
  /-- `is_running` -/
  isRunning : Bool
  /-- `size`: the shares of each market order -/
  size : Nat
  /-- `spread`: the spread to trade on -/
  spread : Nat

/-- What the agent hears. -/
inductive ArbitrageEvent where
  /-- the receiver of `market` reads a packet of its feed -/
  | packet (market : Market) (m : Message)
  /-- the timer's handler, with the draw of `boolean(P_act)` -/
  | act (coin : Bool)

namespace MarketArbitrage

/-- The constructor: `make_username` and `make_password` of both markets' options, which throw on
a string of the wrong length; receivers with empty books, not running, and a login request on
each market's client. -/
def new (size spread : Nat) (usernameA passwordA usernameB passwordB : String) :
    Except String (MarketArbitrage × List (Market × Request)) := do
  let usernameA ← makeUsername usernameA
  let passwordA ← makePassword passwordA
  let usernameB ← makeUsername usernameB
  let passwordB ← makePassword passwordB
  pure (⟨Receiver.init, Receiver.init, false, size, spread⟩,
    [(.a, .loginRequest usernameA passwordA), (.b, .loginRequest usernameB passwordB)])

/-- The receiver of a market. -/
def receiver (s : MarketArbitrage) : Market → Receiver
  | .a => s.receiverA
  | .b => s.receiverB

/-- The agent with the receiver of a market replaced. -/
def setReceiver (s : MarketArbitrage) : Market → Receiver → MarketArbitrage
  | .a, r => { s with receiverA := r }
  | .b, r => { s with receiverB := r }

/-- `did_receive(StartOfSession)`: unless already running, start once both markets are in
session. -/
def didReceiveStartOfSession (s : MarketArbitrage) : MarketArbitrage :=
  if s.isRunning then s
  else if s.receiverA.isSessionActive && s.receiverB.isSessionActive then { s with isRunning := true }
  else s

/-- `did_receive(EndOfSession)`: unless not running, stop once either market is out of
session. -/
def didReceiveEndOfSession (s : MarketArbitrage) : MarketArbitrage :=
  if !s.isRunning then s
  else if !s.receiverA.isSessionActive || !s.receiverB.isSessionActive then
    { s with isRunning := false }
  else s

/-- The `did_receive` overloads; those for book messages do nothing. -/
def didReceive (s : MarketArbitrage) : Message → MarketArbitrage
  | .startOfSession => s.didReceiveStartOfSession
  | .endOfSession => s.didReceiveEndOfSession
  | _ => s

/-- `do_strategy()`: buy at the market where the best sell plus the spread is below the other
market's best buy, and sell at the market on the other; `A` is tried first. -/
def doStrategy (s : MarketArbitrage) : List (Market × Request) :=
  if s.receiverA.book.doesCross s.receiverB.book s.spread then
    [(.a, .orderRequest orderPriceMarket s.size 'B'), (.b, .orderRequest orderPriceMarket s.size 'S')]
  else if s.receiverB.book.doesCross s.receiverA.book s.spread then
    [(.b, .orderRequest orderPriceMarket s.size 'B'), (.a, .orderRequest orderPriceMarket s.size 'S')]
  else []

/-- One event: the new state and the requests handed to the clients. A packet is handled by its
market's receiver, which then calls `did_receive`; the receiver may throw. -/
def step (s : MarketArbitrage) :
    ArbitrageEvent → Except OrderEntry.LOB.BookError (MarketArbitrage × List (Market × Request))
  | .packet market m => do
    let r ← (s.receiver market).handle m
    pure ((s.setReceiver market r).didReceive m, [])
  | .act coin => .ok (s, if s.isRunning && coin then s.doStrategy else [])

/-- Events one after another, with the requests of each in order, stopping at the first that
throws. -/
def run (s : MarketArbitrage) :
    List ArbitrageEvent → Except OrderEntry.LOB.BookError (MarketArbitrage × List (Market × Request))
  | [] => .ok (s, [])
  | ev :: evs => do
    let (s₁, reqs₁) ← s.step ev
    let (s₂, reqs₂) ← s₁.run evs
    pure (s₂, reqs₁ ++ reqs₂)

/-- The run after an event that returns normally. -/
theorem run_cons_of_step {s s₁ : MarketArbitrage} {ev : ArbitrageEvent}
    {reqs₁ : List (Market × Request)} (h : s.step ev = .ok (s₁, reqs₁))
    (evs : List ArbitrageEvent) :
    s.run (ev :: evs) = (s₁.run evs).map fun r => (r.1, reqs₁ ++ r.2) := by
  simp only [run, h, bind, Except.bind, pure, Except.pure]
  cases s₁.run evs <;> rfl

section Equations

variable (s : MarketArbitrage) (market mk : Market) (r : Receiver) (m : Message)

@[simp] theorem receiver_setReceiver : (s.setReceiver market r).receiver market = r := by
  cases market <;> rfl

theorem receiver_setReceiver_of_ne {market mk : Market} (h : mk ≠ market) :
    (s.setReceiver market r).receiver mk = s.receiver mk := by
  cases market <;> cases mk <;> first | rfl | exact absurd rfl h

@[simp] theorem size_setReceiver : (s.setReceiver market r).size = s.size := by cases market <;> rfl
@[simp] theorem spread_setReceiver : (s.setReceiver market r).spread = s.spread := by
  cases market <;> rfl

/-- `did_receive` reads the receivers and changes only `is_running`. -/
theorem didReceive_eq : ∃ b, s.didReceive m = { s with isRunning := b } := by
  cases m <;> simp only [didReceive, didReceiveStartOfSession, didReceiveEndOfSession] <;>
    (try split_ifs) <;> exact ⟨_, rfl⟩

@[simp] theorem receiver_didReceive : (s.didReceive m).receiver mk = s.receiver mk := by
  obtain ⟨b, h⟩ := s.didReceive_eq m; rw [h]; cases mk <;> rfl
@[simp] theorem size_didReceive : (s.didReceive m).size = s.size := by
  obtain ⟨b, h⟩ := s.didReceive_eq m; rw [h]
@[simp] theorem spread_didReceive : (s.didReceive m).spread = s.spread := by
  obtain ⟨b, h⟩ := s.didReceive_eq m; rw [h]

end Equations

end MarketArbitrage

/-! ## §2 Running exactly while both markets are in session -/

namespace MarketArbitrage

/-- The agent runs exactly while both its receivers see a session. -/
def Running (s : MarketArbitrage) : Prop :=
  s.isRunning = ((s.receiver .a).isSessionActive && (s.receiver .b).isSessionActive)

/-- A start of session starts the agent once both markets are in session. -/
theorem isRunning_didReceive_startOfSession (s : MarketArbitrage) :
    (s.didReceive .startOfSession).isRunning =
      (s.isRunning || ((s.receiver .a).isSessionActive && (s.receiver .b).isSessionActive)) := by
  simp only [MarketArbitrage.didReceive, didReceiveStartOfSession, receiver]
  cases hr : s.isRunning <;> cases ha : s.receiverA.isSessionActive <;>
    cases hb : s.receiverB.isSessionActive <;> simp [hr, ha, hb]

/-- An end of session stops the agent once either market is out of session. -/
theorem isRunning_didReceive_endOfSession (s : MarketArbitrage) :
    (s.didReceive .endOfSession).isRunning =
      (s.isRunning && (s.receiver .a).isSessionActive && (s.receiver .b).isSessionActive) := by
  simp only [MarketArbitrage.didReceive, didReceiveEndOfSession, receiver]
  cases hr : s.isRunning <;> cases ha : s.receiverA.isSessionActive <;>
    cases hb : s.receiverB.isSessionActive <;> simp [hr, ha, hb]

/-- **`did_receive` keeps the agent running exactly while both markets are in session**, after
the receiver of either market has handled the packet: a start finds the other market's flag to
decide by, an end finds its own market out of session, and a book message changes no flag. -/
theorem Running.didReceive {s : MarketArbitrage} {market : Market} {r : Receiver} {m : Message}
    (h : s.Running) (hr : (s.receiver market).handle m = .ok r) :
    ((s.setReceiver market r).didReceive m).Running := by
  unfold Running at h ⊢
  rw [receiver_didReceive, receiver_didReceive]
  cases m with
  | startOfSession =>
    cases hr
    rw [isRunning_didReceive_startOfSession]
    cases market <;> simp only [setReceiver, receiver] at h ⊢ <;> rw [h] <;>
      cases s.receiverA.isSessionActive <;> cases s.receiverB.isSessionActive <;> rfl
  | endOfSession =>
    cases hr
    rw [isRunning_didReceive_endOfSession]
    cases market <;> simp only [setReceiver, receiver] at h ⊢ <;> rw [h] <;>
      cases s.receiverA.isSessionActive <;> cases s.receiverB.isSessionActive <;> rfl
  | clear | addOrder | deleteOrder | trade =>
    have hf := Receiver.isSessionActive_handle (by rfl) hr
    cases market <;> simp_all [setReceiver, receiver, MarketArbitrage.didReceive]

end MarketArbitrage

/-! ## §3 The agent fed by two venues -/

/-- The packets of `market` among the agent's events, in order. -/
def packetsOf (market : Market) : List ArbitrageEvent → List Message
  | [] => []
  | .packet market' m :: evs =>
    if market' = market then m :: packetsOf market evs else packetsOf market evs
  | .act _ :: evs => packetsOf market evs

namespace MarketArbitrage

/-- **The run lemma.** If each receiver replays the packets of its market among the events, the
agent handles every event without an exception, its receivers end where the two replays do, and
it still runs exactly while both markets are in session. -/
theorem run_of_replays :
    ∀ (evs : List ArbitrageEvent) (s : MarketArbitrage) {rs : Market → Receiver},
      (∀ mk, Replays (packetsOf mk evs) (s.receiver mk) (rs mk)) → s.Running →
      ∃ s' reqs, s.run evs = .ok (s', reqs) ∧ (∀ mk, s'.receiver mk = rs mk) ∧ s'.Running
  | [], s, _, hR, h => ⟨s, [], rfl, fun mk => (hR mk).eq_of_nil.symm, h⟩
  | .act coin :: evs, s, _, hR, h => by
    obtain ⟨s', reqs, hrun, hrest⟩ := run_of_replays evs s hR h
    have hstep : s.step (.act coin) = .ok (s, if s.isRunning && coin then s.doStrategy else []) :=
      rfl
    exact ⟨s', _, by rw [run_cons_of_step hstep, hrun]; rfl, hrest⟩
  | .packet market m :: evs, s, rs, hR, h => by
    have hm := hR market
    rw [packetsOf, if_pos rfl] at hm
    obtain ⟨r₁, -, hr, hrest⟩ := hm.cons_inv
    have hR₁ : ∀ mk, Replays (packetsOf mk evs)
        (((s.setReceiver market r₁).didReceive m).receiver mk) (rs mk) := by
      intro mk
      rw [receiver_didReceive]
      by_cases hmk : market = mk
      · subst hmk; rwa [receiver_setReceiver]
      · rw [receiver_setReceiver_of_ne _ _ (Ne.symm hmk)]
        simpa [packetsOf, hmk] using hR mk
    obtain ⟨s', reqs, hrun, hrest'⟩ := run_of_replays evs _ hR₁ (h.didReceive hr)
    have hstep : s.step (.packet market m) = .ok ((s.setReceiver market r₁).didReceive m, []) := by
      rw [step, hr]; rfl
    exact ⟨s', _, by rw [run_cons_of_step hstep, hrun]; rfl, hrest'⟩

/-- The constructor's agent: empty receivers, not running. -/
theorem new_state {size spread : Nat} {uA pA uB pB : String} {s₀ : MarketArbitrage}
    {logins : List (Market × Request)} (h : new size spread uA pA uB pB = .ok (s₀, logins)) :
    s₀ = ⟨Receiver.init, Receiver.init, false, size, spread⟩ := by
  unfold new at h
  repeat obtain ⟨_, -, h⟩ := OrderEntry.Server.bind_eq_ok.mp h
  cases h; rfl

end MarketArbitrage

/-! ## §4 At most one direction crosses -/

/-- A `does_cross` that holds compares below the guard, so the sum is exact. -/
theorem doesCrossPrices_lt {bestSell otherBestBuy spread : Nat}
    (h : doesCrossPrices bestSell otherBestBuy spread = true) :
    0 < bestSell ∧ bestSell + spread < otherBestBuy := by
  unfold doesCrossPrices at h
  split_ifs at h with h0 hg hlt
  rw [Nat.mod_eq_of_lt (by omega)] at hlt
  omega

/-- On the mirror of a book that keeps its invariant, a best buy and a best sell, both levels
above 0, do not cross. -/
theorem mirror_bestBuy_lt_bestSell {e : OrderEntry.LOB.Engine} {b : DataFeed.LOB.LimitOrderBook}
    (hm : OrderEntry.LOB.Mirrors [] e b) (hi : OrderEntry.LOB.Inv e) (hb : 0 < b.bestBuy)
    (hs : 0 < b.bestSell) : b.bestBuy < b.bestSell := by
  obtain ⟨p, hp, -⟩ := getD_zero_pos_iff.mp hb
  obtain ⟨q, hq, -⟩ := getD_zero_pos_iff.mp hs
  simp only [DataFeed.LOB.LimitOrderBook.bestBuy, DataFeed.LOB.LimitOrderBook.bestSell, hp, hq,
    Option.getD_some]
  rw [hm.trees] at hp hq
  exact hi.book.uncrossed p ((hi.book.trees .buy).best_spec hp).1 q
    ((hi.book.trees .sell).best_spec hq).1

/-- **At most one direction crosses.** Between the mirrors of two books that keep their
invariant, if `A` sells below what `B` buys, less the spread, then `B` does not sell below what
`A` buys: that would chain `A`'s best sell below `B`'s best buy, below `B`'s best sell, below
`A`'s best buy, crossing `A`. -/
theorem doesCross_exclusive {eA eB : OrderEntry.LOB.Engine} {bA bB : DataFeed.LOB.LimitOrderBook}
    (hA : OrderEntry.LOB.Mirrors [] eA bA) (hiA : OrderEntry.LOB.Inv eA)
    (hB : OrderEntry.LOB.Mirrors [] eB bB) (hiB : OrderEntry.LOB.Inv eB) {spread : Nat}
    (h : bA.doesCross bB spread = true) : bB.doesCross bA spread = false := by
  obtain ⟨hsA, hAB⟩ := doesCrossPrices_lt h
  cases h' : bB.doesCross bA spread
  · rfl
  · obtain ⟨hsB, hBA⟩ := doesCrossPrices_lt h'
    have hA' := mirror_bestBuy_lt_bestSell hA hiA (by omega) hsA
    have hB' := mirror_bestBuy_lt_bestSell hB hiB (by omega) hsB
    omega

namespace MarketArbitrage

/-- The agent with the two markets named the other way round. -/
def swap (s : MarketArbitrage) : MarketArbitrage :=
  { s with receiverA := s.receiverB, receiverB := s.receiverA }

/-- On mirrors of two books that keep their invariant, trying `B` first sends the same orders as
trying `A` first, with the markets named the other way round. -/
theorem doStrategy_swap {s : MarketArbitrage} {eA eB : OrderEntry.LOB.Engine}
    (hA : OrderEntry.LOB.Mirrors [] eA s.receiverA.book) (hiA : OrderEntry.LOB.Inv eA)
    (hB : OrderEntry.LOB.Mirrors [] eB s.receiverB.book) (hiB : OrderEntry.LOB.Inv eB) :
    s.swap.doStrategy = s.doStrategy.map fun o => (o.1.other, o.2) := by
  simp only [doStrategy, swap]
  cases hAB : s.receiverA.book.doesCross s.receiverB.book s.spread
  · cases s.receiverB.book.doesCross s.receiverA.book s.spread <;> rfl
  · rw [doesCross_exclusive hA hiA hB hiB hAB]; rfl

end MarketArbitrage

/-! ## §5 The agent fed by two venues -/

section Venues

variable {usersA usersB : List (String × String)} {vA₀ vA vB₀ vB : Venue}
  (hA₀ : Venue.init usersA = .ok vA₀) (hA : Venue.Reachable vA₀ vA)
  (hB₀ : Venue.init usersB = .ok vB₀) (hB : Venue.Reachable vB₀ vB)
  {size spread : Nat} {uA pA uB pB : String} {s₀ : MarketArbitrage}
  {logins : List (Market × Request)}
  (hnew : MarketArbitrage.new size spread uA pA uB pB = .ok (s₀, logins))
  {evs : List ArbitrageEvent} (hevA : packetsOf .a evs = vA.sent) (hevB : packetsOf .b evs = vB.sent)
include hA₀ hA hB₀ hB hnew hevA hevB

/-- The run of the constructor's agent over both venues' feeds: it returns, with receivers that
mirror the two servers' books and the running flag of both command lines. -/
theorem MarketArbitrage.run_of_venues :
    ∃ s reqs, s₀.run evs = .ok (s, reqs) ∧
      OrderEntry.LOB.Mirrors [] vA.server.book s.receiverA.book ∧
      OrderEntry.LOB.Mirrors [] vB.server.book s.receiverB.book ∧
      s.isRunning = (vA.cli.isSessionActive && vB.cli.isSessionActive) := by
  obtain ⟨rA, hrA, hfA, hmA, -⟩ := hA.mirrored hA₀
  obtain ⟨rB, hrB, hfB, hmB, -⟩ := hB.mirrored hB₀
  cases MarketArbitrage.new_state hnew
  obtain ⟨s, reqs, hrun, hrs, hR⟩ := @MarketArbitrage.run_of_replays evs
    ⟨Receiver.init, Receiver.init, false, size, spread⟩ (fun | .a => rA | .b => rB)
    (fun | .a => hevA ▸ hrA | .b => hevB ▸ hrB) rfl
  have hsA : s.receiver .a = rA := hrs .a
  have hsB : s.receiver .b = rB := hrs .b
  rw [← hsA] at hmA hfA
  rw [← hsB] at hmB hfB
  exact ⟨s, reqs, hrun, hmA, hmB, by rw [show s.isRunning = _ from hR, hfA, hfB]⟩

/-- **The arbitrageur runs exactly while both venues hold a session.** Take two venues, each
reachable from its start by any interleaving of order-entry events and console lines, and an
agent made by the constructor that reads both venues' feeds entirely, the packets of the two
feeds and the timer's events interleaved in any order. The agent throws on no packet, ends with
receivers that hold the two servers' books, and is running exactly when both venues' command
lines have a session active. -/
theorem arbitrage_runs_while_both_sessions :
    ∃ s reqs, s₀.run evs = .ok (s, reqs) ∧
      OrderEntry.LOB.Mirrors [] vA.server.book s.receiverA.book ∧
      OrderEntry.LOB.Mirrors [] vB.server.book s.receiverB.book ∧
      (s.isRunning = true ↔ vA.cli.isSessionActive = true ∧ vB.cli.isSessionActive = true) := by
  obtain ⟨s, reqs, hrun, hmA, hmB, hR⟩ :=
    MarketArbitrage.run_of_venues hA₀ hA hB₀ hB hnew hevA hevB
  exact ⟨s, reqs, hrun, hmA, hmB, by rw [hR, Bool.and_eq_true]⟩

omit hA₀ hA hB₀ hB hnew hevA hevB in
theorem arbitrage_running_after_both_starts :
    ∃ vA₀ vA vB₀ vB s₀ logins,
      Venue.init [("MMMM", "password1234")] = .ok vA₀ ∧
      vA₀.run [.command "start\n", .server (.frame 0 (.loginRequest "MMMM" "password1234")),
        .server (.frame 0 (.orderRequest 100 10 'S'))] = .ok vA ∧ Venue.Reachable vA₀ vA ∧
      Venue.init [("MMMM", "password1234")] = .ok vB₀ ∧
      vB₀.run [.command "start\n", .server (.frame 0 (.loginRequest "MMMM" "password1234")),
        .server (.frame 0 (.orderRequest 105 10 'B'))] = .ok vB ∧ Venue.Reachable vB₀ vB ∧
      MarketArbitrage.new 10 2 "AAAA" "password1234" "BBBB" "password1234" = .ok (s₀, logins) ∧
      vA.cli.isSessionActive = true ∧ vB.cli.isSessionActive = true ∧
      ∃ s reqs, s₀.run [.packet .a .startOfSession, .packet .b .startOfSession,
          .packet .a (.addOrder 1 100 10 'S'), .packet .b (.addOrder 1 105 10 'B'), .act true] =
          .ok (s, reqs) ∧
        OrderEntry.LOB.Mirrors [] vA.server.book s.receiverA.book ∧
        OrderEntry.LOB.Mirrors [] vB.server.book s.receiverB.book ∧
        (s.isRunning = true ↔ vA.cli.isSessionActive = true ∧ vB.cli.isSessionActive = true) := by
  refine ⟨_, _, _, _, _, _, rfl, rfl, ?hA, rfl, rfl, ?hB, rfl, rfl, rfl,
    @arbitrage_runs_while_both_sessions [("MMMM", "password1234")] [("MMMM", "password1234")] _ _ _ _ rfl ?hA rfl ?hB
      10 2 "AAAA" "password1234" "BBBB" "password1234" _ _ rfl _ (by rfl) (by rfl)⟩
  · exact .step (.server (.frame 0 (.orderRequest 100 10 'S')))
      (.step (.server (.frame 0 (.loginRequest "MMMM" "password1234"))) (.step (.command "start\n") .start rfl)
        rfl) rfl
  · exact .step (.server (.frame 0 (.orderRequest 105 10 'B')))
      (.step (.server (.frame 0 (.loginRequest "MMMM" "password1234"))) (.step (.command "start\n") .start rfl)
        rfl) rfl

/-- **The arbitrageur favours neither market.** `do_strategy` tries `A` first, but after the
agent has read both venues' feeds, in any interleaving, at most one direction crosses: naming the
two markets the other way round sends the same orders with the markets swapped. -/
theorem arbitrage_markets_interchangeable {s : MarketArbitrage} {reqs : List (Market × Request)}
    (hrun : s₀.run evs = .ok (s, reqs)) :
    s.swap.doStrategy = s.doStrategy.map fun o => (o.1.other, o.2) := by
  obtain ⟨s', reqs', hrun', hmA, hmB, -⟩ :=
    MarketArbitrage.run_of_venues hA₀ hA hB₀ hB hnew hevA hevB
  rw [hrun'] at hrun
  cases hrun
  exact MarketArbitrage.doStrategy_swap hmA (hA.bookInv hA₀).1 hmB (hB.bookInv hB₀).1

omit hA₀ hA hB₀ hB hnew hevA hevB in
theorem arbitrage_buys_on_a_sells_on_b :
    ∃ vA₀ vA vB₀ vB s₀ logins,
      Venue.init [("MMMM", "password1234")] = .ok vA₀ ∧
      vA₀.run [.command "start\n", .server (.frame 0 (.loginRequest "MMMM" "password1234")),
        .server (.frame 0 (.orderRequest 100 10 'S'))] = .ok vA ∧ Venue.Reachable vA₀ vA ∧
      Venue.init [("MMMM", "password1234")] = .ok vB₀ ∧
      vB₀.run [.command "start\n", .server (.frame 0 (.loginRequest "MMMM" "password1234")),
        .server (.frame 0 (.orderRequest 105 10 'B'))] = .ok vB ∧ Venue.Reachable vB₀ vB ∧
      MarketArbitrage.new 10 2 "AAAA" "password1234" "BBBB" "password1234" = .ok (s₀, logins) ∧
      ∃ s, s₀.run [.packet .a .startOfSession, .packet .b .startOfSession,
          .packet .a (.addOrder 1 100 10 'S'), .packet .b (.addOrder 1 105 10 'B'), .act true] =
          .ok (s, [(.a, .orderRequest orderPriceMarket 10 'B'),
            (.b, .orderRequest orderPriceMarket 10 'S')]) ∧
        s.swap.doStrategy =
          [(.b, .orderRequest orderPriceMarket 10 'B'), (.a, .orderRequest orderPriceMarket 10 'S')] ∧
        s.swap.doStrategy = s.doStrategy.map fun o => (o.1.other, o.2) := by
  refine ⟨_, _, _, _, _, _, rfl, rfl, ?hA, rfl, rfl, ?hB, rfl, _, rfl, rfl,
    @arbitrage_markets_interchangeable [("MMMM", "password1234")] [("MMMM", "password1234")] _ _ _ _ rfl ?hA rfl ?hB
      10 2 "AAAA" "password1234" "BBBB" "password1234" _ _ rfl
      [.packet .a .startOfSession, .packet .b .startOfSession, .packet .a (.addOrder 1 100 10 'S'),
        .packet .b (.addOrder 1 105 10 'B'), .act true] (by rfl) (by rfl) _ _ (by rfl)⟩
  · exact .step (.server (.frame 0 (.orderRequest 100 10 'S')))
      (.step (.server (.frame 0 (.loginRequest "MMMM" "password1234"))) (.step (.command "start\n") .start rfl)
        rfl) rfl
  · exact .step (.server (.frame 0 (.orderRequest 105 10 'B')))
      (.step (.server (.frame 0 (.loginRequest "MMMM" "password1234"))) (.step (.command "start\n") .start rfl)
        rfl) rfl

end Venues

end CboeEmulator.Strategies

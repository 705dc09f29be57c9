import CboeEmulator.DataFeed.Mirror

/-!
# Quotes: `does_cross`, `price()` and `last_price()`

The quote queries of the two books. `does_cross(other, spread)` has the same body in the
order-entry book and in the data feed's mirror: it reads this book's `best_sell()` and the other
book's `best_buy()`, guards `best_sell() + spread` against passing
`std::numeric_limits<Price>::max()`, and compares. The mirror's `price()` is the midpoint of its
best keys and `last_price()` that of its trees' `last_best_price` fields; neither guards its
addition.

`Price` is `uint64_t` and the spread a `Quantity` (`uint32_t`). Prices are natural numbers here
and every `uint64_t` addition of the code is taken `% 2 ^ 64`.

## Main definitions

- `doesCrossPrices`: the body of `does_cross`, over the two prices it reads
- `LOB.LimitOrderBook.doesCross`, `DataFeed.LOB.LimitOrderBook.doesCross`
- `priceMidpoint`: the `uint64_t` midpoint that `price()` and `last_price()` compute
- `DataFeed.LOB.LimitOrderBook.price`, `DataFeed.LOB.LimitOrderBook.lastPrice`

## Main results

- `doesCrossPrices_iff`: below the guard the addition is exact, so `does_cross` is the unbounded
  comparison, with a best sell of 0 read as no sell
- `priceMidpoint_eq`: the midpoint is the exact one when the sum fits, and wraps otherwise
- `mirror_price_within_quote_iff`: on the mirror of every reachable book the mid-price lies
  within the quote exactly when the two best prices sum below `2 ^ 64`

## Representation

- `LimitTree<side>::last_best_price` belongs to the data feed's `limit_tree.hpp`, which is not
  among the sources, and the mirror's tree does not carry it; `last_price()` is modelled as a
  function of the two values it reads, `last_best_sell()` and `last_best_buy()`.
-/

namespace CboeEmulator

/-! ## §1 `does_cross` -/

/-- The body of `does_cross(other, spread)`, over this book's `best_sell()` and the other book's
`best_buy()`: no sell (a best sell of 0) never crosses; nor does a best sell above
`std::numeric_limits<Price>::max() - spread`; otherwise the `uint64_t` sum `best_sell() + spread`
is compared with the other's best buy. -/
def doesCrossPrices (bestSell otherBestBuy spread : Nat) : Bool :=
  if bestSell = 0 then false
  else if bestSell > 2 ^ 64 - 1 - spread then false
  else if (bestSell + spread) % 2 ^ 64 < otherBestBuy then true
  else false

/-- **`does_cross` never wraps.** Against a 64-bit best buy, the overflow guard makes
`does_cross` the comparison of `best_sell() + spread` with the other's best buy over the
naturals, for a best sell other than 0. -/
theorem doesCrossPrices_iff {bestSell otherBestBuy spread : Nat} (hb : otherBestBuy < 2 ^ 64)
    (hs : spread < 2 ^ 64) :
    doesCrossPrices bestSell otherBestBuy spread = true ↔
      0 < bestSell ∧ bestSell + spread < otherBestBuy := by
  unfold doesCrossPrices
  split_ifs with h0 hg hlt
  · simp [h0]
  · simp only [Bool.false_eq_true, false_iff, not_and, not_lt]; omega
  all_goals
    rw [Nat.mod_eq_of_lt (by omega)] at hlt
    simpa [Nat.pos_of_ne_zero h0] using hlt

/-- A best price of 0 stands for an empty side and for a level at price 0 alike. -/
theorem getD_zero_pos_iff {best : Option Nat} : 0 < best.getD 0 ↔ ∃ p, best = some p ∧ 0 < p := by
  cases best <;> simp

namespace OrderEntry.LOB.LimitOrderBook

/-- `does_cross(other, spread)`. -/
def doesCross (e other : Engine) (spread : Nat) : Bool :=
  doesCrossPrices (bestSell e) (bestBuy other) spread

end OrderEntry.LOB.LimitOrderBook

namespace DataFeed.LOB.LimitOrderBook

/-- `best_sell()`: 0 when there is no sell. -/
def bestSell (b : LimitOrderBook) : Nat := (b.trees .sell).best.getD 0

/-- `best_buy()`: 0 when there is no buy. -/
def bestBuy (b : LimitOrderBook) : Nat := (b.trees .buy).best.getD 0

/-- `does_cross(other, spread)`. -/
def doesCross (b other : LimitOrderBook) (spread : Nat) : Bool :=
  doesCrossPrices b.bestSell other.bestBuy spread

end DataFeed.LOB.LimitOrderBook

/-! ## §2 `price()` and `last_price()` -/

/-- The midpoint `(sell + buy) / 2` of two prices, the addition a `uint64_t` one. -/
def priceMidpoint (sell buy : Nat) : Nat := (sell + buy) % 2 ^ 64 / 2

/-- Two 64-bit prices have the exact floor midpoint when their sum fits in 64 bits, and
otherwise that of the sum less `2 ^ 64`. -/
theorem priceMidpoint_eq {sell buy : Nat} (hs : sell < 2 ^ 64) (hb : buy < 2 ^ 64) :
    priceMidpoint sell buy =
      if sell + buy < 2 ^ 64 then (sell + buy) / 2 else (sell + buy - 2 ^ 64) / 2 := by
  unfold priceMidpoint
  split_ifs with h
  · rw [Nat.mod_eq_of_lt h]
  · rw [Nat.mod_eq_sub_mod (by omega), Nat.mod_eq_of_lt (by omega)]

namespace DataFeed.LOB.LimitOrderBook

/-- `price()`: 0 for an empty book, the best key of the only non-empty side, and otherwise the
midpoint of the best sell and the best buy. -/
def price (b : LimitOrderBook) : Nat :=
  match (b.trees .sell).best, (b.trees .buy).best with
  | none, none => 0
  | none, some buy => buy
  | some sell, none => sell
  | some sell, some buy => priceMidpoint sell buy

/-- `last_price()`: the midpoint of `last_best_sell()` and `last_best_buy()`. -/
def lastPrice (lastBestSell lastBestBuy : Nat) : Nat := priceMidpoint lastBestSell lastBestBuy

/-- With both sides non-empty, `price()` is the midpoint of the two best keys. -/
theorem price_of_best {b : LimitOrderBook} {sell buy : Nat} (hs : (b.trees .sell).best = some sell)
    (hb : (b.trees .buy).best = some buy) : b.price = priceMidpoint sell buy := by
  simp [price, hs, hb]

end DataFeed.LOB.LimitOrderBook

/-! ## §3 Both books -/

namespace OrderEntry.LOB

open DataFeed (Receiver)

/-- **`does_cross` in both books.** For 64-bit best buys and 32-bit spreads, `A.does_cross(B, s)`
holds exactly when `A`'s best sell is a level at a price above 0 and `best_sell(A) + s`, over the
naturals, is below `best_buy(B)`, which is 0 when `B` has no buy. -/
theorem does_cross_iff_positive_best_sell :
    (∀ (A B : Engine) (s : Nat), s < 2 ^ 32 → LimitOrderBook.bestBuy B < 2 ^ 64 →
      (LimitOrderBook.doesCross A B s = true ↔
        (∃ p, A.sells.best = some p ∧ 0 < p) ∧
          LimitOrderBook.bestSell A + s < LimitOrderBook.bestBuy B)) ∧
    (∀ (A B : DataFeed.LOB.LimitOrderBook) (s : Nat), s < 2 ^ 32 → B.bestBuy < 2 ^ 64 →
      (A.doesCross B s = true ↔
        (∃ p, (A.trees .sell).best = some p ∧ 0 < p) ∧ A.bestSell + s < B.bestBuy)) :=
  ⟨fun _ _ _ hs hb => (doesCrossPrices_iff hb (by omega)).trans (and_congr_left' getD_zero_pos_iff),
    fun _ _ _ hs hb => (doesCrossPrices_iff hb (by omega)).trans (and_congr_left' getD_zero_pos_iff)⟩

theorem sell_at_100_crosses_buy_at_105 :
    LimitOrderBook.doesCross (LimitOrderBook.limit (Engine.init fun _ => Account.new) "A" .sell 10 100).2
      (LimitOrderBook.limit (Engine.init fun _ => Account.new) "B" .buy 10 105).2 2 = true ∧
    (DataFeed.LOB.LimitOrderBook.init.limitSell 1 10 100).doesCross
      (DataFeed.LOB.LimitOrderBook.init.limitBuy 2 10 105) 2 = true :=
  ⟨(does_cross_iff_positive_best_sell.1 _ _ 2 (by decide) (by decide)).2
      ⟨⟨100, rfl, by decide⟩, by decide⟩,
    (does_cross_iff_positive_best_sell.2 _ _ 2 (by decide) (by decide)).2
      ⟨⟨100, rfl, by decide⟩, by decide⟩⟩

/-- A sell resting at price 0 never crosses. Against a buy at 5 with no spread, its side is not
empty and `0 + 0 < 5`, yet `does_cross` reads the best sell of 0 as no sell, in the book and in
the mirror that replays the book's feed. -/
theorem sell_at_price_zero_does_not_cross :
    Reachable Request.Reported (Engine.init fun _ => Account.new)
      (LimitOrderBook.limit (Engine.init fun _ => Account.new) "A" .sell 10 0).2 ∧
    (LimitOrderBook.limit (Engine.init fun _ => Account.new) "A" .sell 10 0).2.sells.best = some 0 ∧
    LimitOrderBook.bestBuy (LimitOrderBook.limit (Engine.init fun _ => Account.new) "B" .buy 10 5).2 = 5 ∧
    LimitOrderBook.doesCross (LimitOrderBook.limit (Engine.init fun _ => Account.new) "A" .sell 10 0).2
      (LimitOrderBook.limit (Engine.init fun _ => Account.new) "B" .buy 10 5).2 0 = false ∧
    Receiver.init.run (LimitOrderBook.limit (Engine.init fun _ => Account.new) "A" .sell 10 0).2.feed =
      .ok ⟨DataFeed.LOB.LimitOrderBook.init.limitSell 1 10 0, false⟩ ∧
    ((DataFeed.LOB.LimitOrderBook.init.limitSell 1 10 0).trees .sell).best = some 0 ∧
    (DataFeed.LOB.LimitOrderBook.init.limitSell 1 10 0).doesCross
      (DataFeed.LOB.LimitOrderBook.init.limitBuy 2 10 5) 0 = false :=
  ⟨.step (.limit "A" .sell 10 0) trivial .start rfl, rfl, rfl, rfl, rfl, rfl, rfl⟩

/-- **The mirror's quote and mid-price.** On the mirror of every reachable book with both sides
non-empty and a 64-bit best sell, `price()` is the exact floor midpoint of the two best prices
when their sum fits in 64 bits, and lies within the quote exactly then. For every two 64-bit last
best prices, `last_price()` is their exact floor midpoint exactly when their sum fits. -/
theorem mirror_price_within_quote_iff :
    (∀ (accounts : AccountId → Account) (e : Engine),
      Reachable Request.Reported (Engine.init accounts) e →
      ∃ r : Receiver, Receiver.init.run e.feed = .ok r ∧
        ∀ sell buy, (r.book.trees .sell).best = some sell → (r.book.trees .buy).best = some buy →
          sell < 2 ^ 64 →
          (sell + buy < 2 ^ 64 → r.book.price = (sell + buy) / 2) ∧
          (buy ≤ r.book.price ∧ r.book.price ≤ sell ↔ sell + buy < 2 ^ 64)) ∧
    (∀ lastBestSell lastBestBuy, lastBestSell < 2 ^ 64 → lastBestBuy < 2 ^ 64 →
      (DataFeed.LOB.LimitOrderBook.lastPrice lastBestSell lastBestBuy =
          (lastBestSell + lastBestBuy) / 2 ↔ lastBestSell + lastBestBuy < 2 ^ 64)) := by
  refine ⟨fun accounts e h => ?_, fun ls lb hs hb => ?_⟩
  · obtain ⟨r, hr, -, hm⟩ := h.replayed accounts
    refine ⟨r, hr, fun sell buy hs hb h64 => ?_⟩
    have hbs : buy < sell :=
      (h.inv (Inv.init accounts)).represented.spread buy sell
        (show (e.trees .buy).best = _ from hm.trees ▸ hb) (show (e.trees .sell).best = _ from hm.trees ▸ hs)
    rw [DataFeed.LOB.LimitOrderBook.price_of_best hs hb, priceMidpoint_eq h64 (by omega)]
    split_ifs <;> omega
  · rw [DataFeed.LOB.LimitOrderBook.lastPrice, priceMidpoint_eq hs hb]
    split_ifs <;> omega

/-- On the mirror of a sell at `2 ^ 63 + 1` and a buy at `2 ^ 63`, the two best prices sum past
`2 ^ 64 - 1`: the mid-price falls outside the quote, and `last_price()` of the same two prices
is not their midpoint. -/
theorem mirror_price_outside_high_quote :
    ¬(2 ^ 63 ≤ ((DataFeed.LOB.LimitOrderBook.init.limitSell 1 1 (2 ^ 63 + 1)).limitBuy 2 1
        (2 ^ 63)).price ∧
      ((DataFeed.LOB.LimitOrderBook.init.limitSell 1 1 (2 ^ 63 + 1)).limitBuy 2 1
        (2 ^ 63)).price ≤ 2 ^ 63 + 1) ∧
    DataFeed.LOB.LimitOrderBook.lastPrice (2 ^ 63 + 1) (2 ^ 63) ≠ (2 ^ 63 + 1 + 2 ^ 63) / 2 := by
  obtain ⟨r, hr, hp⟩ := mirror_price_within_quote_iff.1 (fun _ => Account.new)
    (LimitOrderBook.limit (LimitOrderBook.limit (Engine.init fun _ => Account.new) "A" .sell 1
      (2 ^ 63 + 1)).2 "B" .buy 1 (2 ^ 63)).2
    (.step (.limit "B" .buy 1 (2 ^ 63)) trivial (.step (.limit "A" .sell 1 (2 ^ 63 + 1)) trivial
      .start rfl) rfl)
  obtain rfl : r = ⟨(DataFeed.LOB.LimitOrderBook.init.limitSell 1 1 (2 ^ 63 + 1)).limitBuy 2 1
      (2 ^ 63), false⟩ := Except.ok.inj (hr.symm.trans rfl)
  exact ⟨fun hq => absurd ((hp _ _ rfl rfl (by decide)).2.mp hq) (by decide),
    fun hl => absurd ((mirror_price_within_quote_iff.2 _ _ (by decide) (by decide)).mp hl)
      (by decide)⟩

/-- **`price()` wraps.** The book after a sell at `2 ^ 63 + 1` and a buy at `2 ^ 63` is
reachable, and the receiver that replays its feed holds both orders. Their prices sum to
`2 ^ 64 + 1`, which the `uint64_t` addition wraps to 1, so the mirror's `price()` is 0, below its
best buy. `last_price()` of the same two prices is 0 too. -/
theorem price_wraps_on_high_quote :
    Reachable Request.Reported (Engine.init fun _ => Account.new)
      (LimitOrderBook.limit (LimitOrderBook.limit (Engine.init fun _ => Account.new) "A" .sell 1
        (2 ^ 63 + 1)).2 "B" .buy 1 (2 ^ 63)).2 ∧
    Receiver.init.run (LimitOrderBook.limit (LimitOrderBook.limit (Engine.init fun _ => Account.new)
        "A" .sell 1 (2 ^ 63 + 1)).2 "B" .buy 1 (2 ^ 63)).2.feed =
      .ok ⟨(DataFeed.LOB.LimitOrderBook.init.limitSell 1 1 (2 ^ 63 + 1)).limitBuy 2 1 (2 ^ 63),
        false⟩ ∧
    ((DataFeed.LOB.LimitOrderBook.init.limitSell 1 1 (2 ^ 63 + 1)).limitBuy 2 1
      (2 ^ 63)).bestSell = 2 ^ 63 + 1 ∧
    ((DataFeed.LOB.LimitOrderBook.init.limitSell 1 1 (2 ^ 63 + 1)).limitBuy 2 1
      (2 ^ 63)).bestBuy = 2 ^ 63 ∧
    ((DataFeed.LOB.LimitOrderBook.init.limitSell 1 1 (2 ^ 63 + 1)).limitBuy 2 1
      (2 ^ 63)).price = 0 ∧
    DataFeed.LOB.LimitOrderBook.lastPrice (2 ^ 63 + 1) (2 ^ 63) = 0 :=
  ⟨.step (.limit "B" .buy 1 (2 ^ 63)) trivial (.step (.limit "A" .sell 1 (2 ^ 63 + 1)) trivial
    .start rfl) rfl, rfl, rfl, rfl, rfl, rfl⟩

end OrderEntry.LOB

end CboeEmulator

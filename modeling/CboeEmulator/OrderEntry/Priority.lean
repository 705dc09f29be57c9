import CboeEmulator.OrderEntry.Reachable

/-!
# Order-Entry Book: What the Matching Loop Trades

Each round of the matching loop trades the head order of the best level of the opposite tree, at
that order's price, which the invariant keeps equal to the level's key. So a run of the loop
trades in the tree's priority order, every price it trades at matched the taker, and no level it
leaves behind beats a price it traded at. For a limit order the match test reads the limit
price: a buy pays no more than its price, a sell gets no less. A price of 0 is the loop's mark of
a market order, which matches every level, so it is left out of that last guarantee.

Each round also takes off the tree exactly what the taker loses. A market order matches every
level, so its loop stops only when it is filled or the opposite side is empty: it takes its
quantity off the opposite side's volume, or all of that volume when there is less.

## Main results

- `BookOk.marketStep_price`: the two callbacks of a round are at the best key of the tree;
- `Priced`, `BookOk.market_priced`: what a whole run of the loop trades at;
- `limit_price_priority`: on every reachable book, a `limit` call at a nonzero price trades
  within its limit, in price priority, and leaves no better price behind.
- `BookOk.marketStep_volume`, `BookOk.market_volume`: what a round, and a run, take off the tree;
- `market_takes_liquidity`: on every reachable book, a `market` call takes its quantity off the
  opposite side's volume, cut off at zero, and leaves its own side alone;
- `limit_volume_balance`: on every reachable book, what a `limit` call does not take off the
  opposite side joins its own side.
-/

namespace CboeEmulator.OrderEntry.LOB

open LimitTree LimitOrderBook

/-! ## §1 One round -/

section Round

variable {side : Side} {extra : List Nat} {e e' : Engine} {o o' : Order}

/-- **What a round trades at.** The round takes the best level of the tree, whose key matched the
taker; both of its callbacks are at that key, and the tree keeps no key it did not have. -/
theorem BookOk.marketStep_price (hb : BookOk extra e)
    (hs : LimitTree.marketStep side e o = some (e', o')) :
    ∃ key, (e.trees side).best = some key ∧ canMatch side key o.price ∧
      (∃ c₁ c₂ : Callback, e'.fills = e.fills ++ [c₁, c₂] ∧ c₁.price = key ∧ c₂.price = key) ∧
      (e'.trees side).keys ⊆ (e.trees side).keys := by
  obtain ⟨key, l, uid, m, hbest, -, hc, hl, hu, hm, hr⟩ := marketStep_eq_some hs
  obtain ⟨hlm, hlk⟩ := find_some hl
  have hul : uid ∈ l.orders := List.mem_of_mem_head? hu
  obtain ⟨rfl, -, hp, -⟩ := (hb.trees side).resting_of_queued hm hlm hul
  have hpk : m.price = key := hp.trans hlk
  split at hr <;> obtain ⟨rfl, rfl⟩ := Prod.ext_iff.mp hr
  · -- the maker is filled and spliced out of its level
    refine ⟨key, hbest, hc, ⟨_, _, fillMaker_fills, hpk, ?_⟩, ?_⟩
    · unfold takerCallback; split <;> exact hpk
    · have hq : m.uid ∈ (e.trees side).queued := mem_queued.mpr ⟨l, hlm, hul⟩
      simpa using ((hb.trees side).remove (hb.queued_nodup side) hm hq
        fun u _ hne => AList.lookup_erase_ne hne).2.2
  · -- the taker is filled; the level only loses volume
    exact ⟨key, hbest, hc, ⟨_, _, fillTaker_fills, hpk, hpk⟩, by simp⟩

end Round

/-! ## §2 Runs of the loop -/

/-- What a run from `e₀` to `e` traded at, in the priority of tree `side`, for a taker at `price`:
it logged callbacks `cs` after `e₀`'s log, each at a price that matched the taker, in the tree's
priority order, and no level left in the tree beats a price of `cs`. -/
def Priced (side : Side) (price : Nat) (e₀ e : Engine) : Prop :=
  ∃ cs : List Callback, e.fills = e₀.fills ++ cs ∧ (∀ c ∈ cs, canMatch side c.price price) ∧
    (cs.map Callback.price).Pairwise (fun p q => ¬ better side q p) ∧
    ∀ c ∈ cs, ∀ k ∈ (e.trees side).keys, ¬ better side k c.price

section Priced

variable {side : Side} {price : Nat} {extra : List Nat} {e₀ e e' : Engine} {o o' : Order}

/-- A run that logged nothing traded at no price. -/
theorem Priced.of_fills (hf : e.fills = e₀.fills) : Priced side price e₀ e :=
  ⟨[], by simp [hf], by simp, by simp, by simp⟩

/-- `Priced` reads of its last engine only the fill log and the tree. -/
theorem Priced.congr (h : Priced side price e₀ e) (hf : e'.fills = e.fills)
    (ht : e'.trees side = e.trees side) : Priced side price e₀ e' := by
  obtain ⟨cs, hcs, hm, hord, hnb⟩ := h
  exact ⟨cs, hf.trans hcs, hm, hord, ht ▸ hnb⟩

/-- **One round extends a priced run**: its price is the best key, which no key of the tree beats
and which beats none of the prices traded before. -/
theorem Priced.marketStep (h : Priced side price e₀ e) (hprice : o.price = price)
    (hb : BookOk extra e) (hs : LimitTree.marketStep side e o = some (e', o')) :
    Priced side price e₀ e' := by
  obtain ⟨cs, hf, hm, hord, hnb⟩ := h
  obtain ⟨key, hbest, hc, ⟨c₁, c₂, hf', hp₁, hp₂⟩, hk⟩ := hb.marketStep_price hs
  obtain ⟨hkey, hbk⟩ := (hb.trees side).best_spec hbest
  have hnew : ∀ c ∈ [c₁, c₂], c.price = key := by simp [hp₁, hp₂]
  have hunbeaten : ∀ k ∈ (e.trees side).keys, ¬ better side k key := fun k hk' =>
    (hbk k hk').elim (fun he => he ▸ better_irrefl side k) better_asymm
  refine ⟨cs ++ [c₁, c₂], by rw [hf', hf, List.append_assoc], fun c hc' => ?_, ?_,
    fun c hc' k hk' => ?_⟩
  · rcases List.mem_append.mp hc' with hcs | hcs
    exacts [hm c hcs, hnew c hcs ▸ hprice ▸ hc]
  · simp only [List.map_append, List.map_cons, List.map_nil, hp₁, hp₂, List.pairwise_append,
      List.mem_map, List.mem_cons, List.mem_singleton, List.not_mem_nil, or_false, or_self]
    refine ⟨hord, by simp [better_irrefl], ?_⟩
    rintro _ ⟨c, hcs, rfl⟩ b hbq
    exact hbq ▸ hnb c hcs key hkey
  · rcases List.mem_append.mp hc' with hcs | hcs
    exacts [hnb c hcs k (hk hk'), hnew c hcs ▸ hunbeaten k (hk hk')]

/-- **A run of the matching loop trades in priority**, within the taker's price, and leaves no
better level behind. -/
theorem BookOk.market_priced (hb : BookOk extra e) (side : Side) (o : Order) :
    Priced side o.price e (LimitTree.market side e o).1 :=
  (marketLoop_invariant (P := fun e' o' => BookOk extra e' ∧ o'.price = o.price ∧
      Priced side o.price e e')
    (fun _ _ _ _ ⟨hb₁, hp₁, hP₁⟩ hs => ⟨(hb₁.marketStep hs).1,
      (congrArg Order.price (marketStep_taker hs).1).trans hp₁, hP₁.marketStep hp₁ hb₁ hs⟩)
    _ e o ⟨hb, rfl, .of_fills rfl⟩).2.2

end Priced

/-! ## §3 The calls -/

section Calls

variable {e : Engine}

/-- `limit_sell` / `limit_buy` trade in the priority of the opposite tree, within their price. -/
theorem Inv.limitSide_priced (h : Inv e) (side : Side) (account : AccountId) (quantity price : Nat) :
    Priced side.not price e (LimitOrderBook.limitSide side e account quantity price).2 := by
  have hfresh : e.sequence ∉ e.orders := fun hm => Nat.lt_irrefl _ (h.fresh _ hm)
  let o : Order := ⟨e.sequence, side, quantity, price, none, account⟩
  have hloop := (h.book.emplace hfresh o).market_priced side.not o
  rcases limitSide_cases side account quantity price hfresh with ⟨-, heq⟩ | ⟨-, -, heq⟩ |
    ⟨-, -, heq⟩ <;> rw [heq]
  · -- the order rests untouched: nothing is traded
    exact .of_fills rfl
  · -- the order is filled and dropped
    exact hloop.congr rfl rfl
  · -- what is left of the order rests on its own side
    exact hloop.congr rfl (by simp [LimitTree.limit, Function.update_noteq (Side.not_ne side)])

/-- `market_sell` / `market_buy` trade in the priority of the opposite tree. -/
theorem Inv.marketSide_priced (h : Inv e) (side : Side) (account : AccountId) (quantity : Nat) :
    Priced side.not 0 e (LimitOrderBook.marketSide side e account quantity) :=
  h.book.market_priced side.not ⟨e.sequence, side, quantity, 0, none, account⟩

end Calls

/-- A level of the opposite tree that matches a taker at a nonzero price crosses that price, as
`limit_sell` / `limit_buy` test it: it is no higher than a buy's price, no lower than a sell's. -/
theorem crosses_of_canMatch {side : Side} {key price : Nat} (hp : price ≠ 0)
    (h : canMatch side.not key price) : crosses side key price := by
  cases side <;> simp only [canMatch, better, Side.not_sell, Side.not_buy, crosses] at h ⊢ <;> omega

/-- **Limit orders trade within their price, in price priority.** On every reachable book, a
`limit` call at a nonzero price logs callbacks `cs`. Each is at a price that crosses the order's
price: a buy pays no more than its price, a sell gets no less. They come in the opposite side's
priority order, lowest sell or highest buy first. After the call no level of the opposite side
beats a price the order traded at. -/
theorem limit_price_priority {allowed : Request → Prop} {accounts : AccountId → Account} {e : Engine}
    (h : Reachable allowed (Engine.init accounts) e) (account : AccountId) (side : Side)
    (quantity price : Nat) (hp : price ≠ 0) :
    ∃ cs : List Callback, (LimitOrderBook.limit e account side quantity price).2.fills = e.fills ++ cs ∧
      (∀ c ∈ cs, crosses side c.price price) ∧
      (cs.map Callback.price).Pairwise (fun p q => ¬ better side.not q p) ∧
      ∀ c ∈ cs, ∀ k ∈ ((LimitOrderBook.limit e account side quantity price).2.trees side.not).keys,
        ¬ better side.not k c.price := by
  rw [limit_eq_limitSide]
  obtain ⟨cs, hf, hm, hord, hnb⟩ := (h.inv (Inv.init accounts)).limitSide_priced side account
    quantity price
  exact ⟨cs, hf, fun c hc => crosses_of_canMatch hp (hm c hc), hord, hnb⟩

theorem limit_price_priority_after_sell :
    ∃ cs : List Callback, (LimitOrderBook.limit (LimitOrderBook.limit (Engine.init fun _ => Account.new)
        "A" .sell 5 100).2 "B" .buy 10 101).2.fills =
        (LimitOrderBook.limit (Engine.init fun _ => Account.new) "A" .sell 5 100).2.fills ++ cs ∧
      (∀ c ∈ cs, crosses .buy c.price 101) ∧
      (cs.map Callback.price).Pairwise (fun p q => ¬ better Side.buy.not q p) ∧
      ∀ c ∈ cs, ∀ k ∈ ((LimitOrderBook.limit (LimitOrderBook.limit (Engine.init fun _ => Account.new)
        "A" .sell 5 100).2 "B" .buy 10 101).2.trees Side.buy.not).keys, ¬ better Side.buy.not k c.price :=
  @limit_price_priority (fun _ => True) _ _ (.step (.limit "A" .sell 5 100) trivial .start rfl) "B" .buy 10
    101 (by decide)

/-! ## §4 What a market order takes -/

section Volume

variable {side : Side} {extra : List Nat} {m : UIDOrderMap} {t : LimitTree} {e e' : Engine}
  {o o' : Order}

/-- A queued order's quantity is at most its side's volume. -/
theorem TreeOk.quantity_le_volume (h : TreeOk side m t) {u : Nat} {o : Order}
    (ho : m.lookup u = some o) (hq : u ∈ t.queued) : o.quantity ≤ t.volume := by
  obtain ⟨l, hl, hul⟩ := mem_queued.mp hq
  have hlv : o.quantity ≤ l.volume := by
    rw [(h.levels l hl).volume, ← quantityOf_of_lookup ho]
    have := List.sum_map_erase (quantityOf m) hul; omega
  have := le_sum_of_level hl (·.volume)
  rw [h.volume]; omega

/-- A side with no best level has no volume. -/
theorem TreeOk.volume_of_best_none (h : TreeOk side m t) (hb : t.best = none) : t.volume = 0 := by
  have hls : t.limits = [] := by
    have hbest := h.best
    rw [hb] at hbest
    cases hl : t.limits with
    | nil => rfl
    | cons x xs => simp [hl] at hbest
  simp [h.volume, hls]

/-- **What a round takes off the tree**: exactly what the taker loses; the other tree stays. -/
theorem BookOk.marketStep_volume (hb : BookOk extra e)
    (hs : LimitTree.marketStep side e o = some (e', o')) :
    (e'.trees side).volume + o.quantity = (e.trees side).volume + o'.quantity ∧
      ∀ s, s ≠ side → e'.trees s = e.trees s := by
  obtain ⟨key, l, uid, m, -, -, -, hl, hu, hm, hr⟩ := marketStep_eq_some hs
  obtain ⟨hlm, hlk⟩ := find_some hl
  have hul : uid ∈ l.orders := List.mem_of_mem_head? hu
  obtain ⟨rfl, -, -, hlim⟩ := (hb.trees side).resting_of_queued hm hlm hul
  rw [hlk] at hlim
  have hq := (hb.trees side).quantity_le_volume hm (mem_queued.mpr ⟨l, hlm, hul⟩)
  split at hr <;> obtain ⟨rfl, rfl⟩ := Prod.ext_iff.mp hr
  · -- the maker leaves with its whole quantity
    have hv : ((e.trees side).remove m).volume = (e.trees side).volume - m.quantity := by
      simp only [LimitTree.remove, hlim, hl]; split <;> rfl
    refine ⟨?_, fun s hs => by simp [Function.update_noteq hs]⟩
    simp only [fillMaker_trees, Function.update_same, hv, fillMaker_taker]; omega
  · -- the taker's quantity comes off the maker's level
    refine ⟨?_, fun s hs => by simp [Function.update_noteq hs]⟩
    simp only [fillTaker_trees, Function.update_same, fillTaker_taker, LimitTree.reduceVolume]; omega

/-- **What a run of the loop takes off the tree**: exactly what the taker loses. -/
theorem BookOk.market_volume (hb : BookOk extra e) (side : Side) (o : Order) :
    ((LimitTree.market side e o).1.trees side).volume + o.quantity =
        (e.trees side).volume + (LimitTree.market side e o).2.quantity ∧
      ∀ s, s ≠ side → (LimitTree.market side e o).1.trees s = e.trees s :=
  (marketLoop_invariant (P := fun e' o' => BookOk extra e' ∧
      (e'.trees side).volume + o.quantity = (e.trees side).volume + o'.quantity ∧
      ∀ s, s ≠ side → e'.trees s = e.trees s)
    (fun _ _ _ _ ⟨hb₁, hv₁, ht₁⟩ hs =>
      have hstep := hb₁.marketStep_volume hs
      ⟨(hb₁.marketStep hs).1, by omega, fun s hs' => (hstep.2 s hs').trans (ht₁ s hs')⟩)
    _ e o ⟨hb, rfl, fun _ _ => rfl⟩).2

/-- `market_sell` / `market_buy` take their quantity off the opposite side's volume, or all of it,
and leave their own side alone. -/
theorem Inv.marketSide_volume (h : Inv e) (side : Side) (account : AccountId) (quantity : Nat) :
    ((LimitOrderBook.marketSide side e account quantity).trees side.not).volume =
        (e.trees side.not).volume - quantity ∧
      (LimitOrderBook.marketSide side e account quantity).trees side = e.trees side := by
  let o : Order := ⟨e.sequence, side, quantity, 0, none, account⟩
  obtain ⟨hb', -, -, ho', -, hexit⟩ := h.book.market side.not o
  obtain ⟨hv, ht⟩ := h.book.market_volume side.not o
  refine ⟨?_, ht side (Side.not_ne side).symm⟩
  show ((LimitTree.market side.not e o).1.trees side.not).volume = _
  have hoq : o.quantity = quantity := rfl
  rcases hb'.marketStep_eq_none hexit with hq | hnm
  · omega
  · -- a market order matches every level, so the opposite side is empty
    have hbest : ((LimitTree.market side.not e o).1.trees side.not).best = none := by
      cases hbk : ((LimitTree.market side.not e o).1.trees side.not).best with
      | none => rfl
      | some key => exact absurd (.inl (by rw [ho'])) (hnm key hbk)
    have := (hb'.trees side.not).volume_of_best_none hbest
    omega

@[simp] theorem LimitTree.volume_insert (side : Side) (t : LimitTree) (o : Order) :
    (t.insert side o).volume = t.volume + o.quantity := by
  unfold LimitTree.insert; split <;> rfl

/-- `limit_sell` / `limit_buy` lose no share and make none: what the order does not take off the
opposite side's volume joins its own side's. -/
theorem Inv.limitSide_volume (h : Inv e) (side : Side) (account : AccountId) (quantity price : Nat) :
    ((LimitOrderBook.limitSide side e account quantity price).2.trees side.not).volume +
        (e.trees side).volume + quantity =
      (e.trees side.not).volume + ((LimitOrderBook.limitSide side e account quantity price).2.trees side).volume := by
  have hfresh : e.sequence ∉ e.orders := fun hm => Nat.lt_irrefl _ (h.fresh _ hm)
  obtain ⟨hv, ht⟩ := (h.book.emplace hfresh ⟨e.sequence, side, quantity, price, none, account⟩).market_volume
    side.not ⟨e.sequence, side, quantity, price, none, account⟩
  have hne : side ≠ side.not := (Side.not_ne side).symm
  dsimp only at hv ht
  rcases limitSide_cases side account quantity price hfresh with ⟨-, heq⟩ | ⟨-, hq, heq⟩ |
    ⟨-, -, heq⟩ <;> rw [heq]
  · -- the order rests untouched
    simp [LimitTree.limit, Function.update_noteq hne.symm]; omega
  · -- the order is filled and dropped
    dsimp only at hq ⊢
    rw [ht side hne]; omega
  · -- what is left of the order rests
    simp [LimitTree.limit, Function.update_noteq hne.symm, ht side hne]; omega

end Volume

/-- **A market order takes liquidity up to its quantity and never rests.** On every reachable
book, `market` takes `quantity` shares off the opposite side's volume, or all of it when the side
holds fewer, and leaves the order's own side as it was. -/
theorem market_takes_liquidity {allowed : Request → Prop} {accounts : AccountId → Account}
    {e : Engine} (h : Reachable allowed (Engine.init accounts) e) (account : AccountId) (side : Side)
    (quantity : Nat) :
    ((LimitOrderBook.market e account side quantity).trees side.not).volume =
        (e.trees side.not).volume - quantity ∧
      (LimitOrderBook.market e account side quantity).trees side = e.trees side := by
  rw [market_eq_marketSide]
  exact (h.inv (Inv.init accounts)).marketSide_volume side account quantity

theorem market_takes_liquidity_after_sell :
    ((LimitOrderBook.market (LimitOrderBook.limit (Engine.init fun _ => Account.new) "A" .sell 5 100).2
        "B" .buy 8).trees Side.buy.not).volume =
        ((LimitOrderBook.limit (Engine.init fun _ => Account.new) "A" .sell 5 100).2.trees
          Side.buy.not).volume - 8 ∧
      (LimitOrderBook.market (LimitOrderBook.limit (Engine.init fun _ => Account.new) "A" .sell 5 100).2
        "B" .buy 8).trees .buy =
        (LimitOrderBook.limit (Engine.init fun _ => Account.new) "A" .sell 5 100).2.trees .buy :=
  @market_takes_liquidity (fun _ => True) _ _ (.step (.limit "A" .sell 5 100) trivial .start rfl) "B"
    .buy 8

/-- **A limit order loses no share and makes none.** On every reachable book, what a `limit` call
does not take off the opposite side's volume joins its own side's: the opposite side's volume
after the call, with the own side's before it and the order's quantity, makes the opposite side's
volume before the call with the own side's after it. -/
theorem limit_volume_balance {allowed : Request → Prop} {accounts : AccountId → Account}
    {e : Engine} (h : Reachable allowed (Engine.init accounts) e) (account : AccountId) (side : Side)
    (quantity price : Nat) :
    ((LimitOrderBook.limit e account side quantity price).2.trees side.not).volume +
        (e.trees side).volume + quantity =
      (e.trees side.not).volume + ((LimitOrderBook.limit e account side quantity price).2.trees side).volume := by
  rw [limit_eq_limitSide]
  exact (h.inv (Inv.init accounts)).limitSide_volume side account quantity price

theorem limit_volume_balance_after_sell :
    ((LimitOrderBook.limit (LimitOrderBook.limit (Engine.init fun _ => Account.new) "A" .sell 5 100).2
        "B" .buy 8 100).2.trees Side.buy.not).volume +
        ((LimitOrderBook.limit (Engine.init fun _ => Account.new) "A" .sell 5 100).2.trees .buy).volume + 8 =
      ((LimitOrderBook.limit (Engine.init fun _ => Account.new) "A" .sell 5 100).2.trees Side.buy.not).volume +
        ((LimitOrderBook.limit (LimitOrderBook.limit (Engine.init fun _ => Account.new) "A" .sell 5 100).2
          "B" .buy 8 100).2.trees .buy).volume :=
  @limit_volume_balance (fun _ => True) _ _ (.step (.limit "A" .sell 5 100) trivial .start rfl) "B"
    .buy 8 100

end CboeEmulator.OrderEntry.LOB

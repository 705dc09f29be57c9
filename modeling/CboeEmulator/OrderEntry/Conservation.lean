import CboeEmulator.OrderEntry.Reachable

/-!
# Order-Entry Book: Matching Conserves Positions

Each round of the matching loop fires two callbacks: the maker's `limit_fill` / `limit_partial`
and the taker's `market_fill` / `market_partial`. They book one quantity at one price (the
maker's) on opposite sides, each on its own account by the side rule of `Account::fill`, so their
changes to shares and capital cancel. Summed over any set of accounts that holds the taker's and
those of the resting orders, shares and capital do not move in `limit` or `market`, computed
modulo 2^64 as `Account::fill` computes them.

## Main definitions

- `sharesBooked`, `capitalBooked`: what a list of callbacks books to one account;
- `Books`: account by account, one engine's balances are another's plus what a log books;
- `Conserves`: what a run of the matching loop does for one taker;
- `FillsBetween`: the fill log grows by opposite pairs between accounts of a set, booked.

## Main results

- `Books.call`: a callback books its side rule on its own account and nothing elsewhere;
- `marketStep_fill`: what one round books, and on whose accounts;
- `BookOk.market_conserves`: a run of the loop books opposite pairs whose quantities add up to
  what the taker lost, and moves no sum;
- `trade_conserves`: the same for the calls `limit` and `market` on every reachable book;
- `Reachable.conserves`: along every run of calls, the fill log books every balance;
- `capital_wraps_on_admitted_trade`: a trade worth 2^64, within the protocol's ranges, moves no
  capital.
-/

namespace CboeEmulator.OrderEntry.LOB

open LimitTree LimitOrderBook

/-! ## §1 What a callback does to a balance -/

/-- The change `Account::fill` of `side` for `quantity` makes to shares. -/
def sharesDelta (side : Side) (quantity : Nat) : Shares :=
  match side with
  | .sell => -BitVec.ofNat 64 quantity
  | .buy => BitVec.ofNat 64 quantity

/-- The change `Account::fill` of `side` for `quantity` at `price` makes to capital. -/
def capitalDelta (side : Side) (quantity price : Nat) : Capital :=
  match side with
  | .sell => BitVec.ofNat 64 (quantity * price)
  | .buy => -BitVec.ofNat 64 (quantity * price)

@[simp] theorem sharesDelta_not (side : Side) (q : Nat) :
    sharesDelta side.not q = -sharesDelta side q := by
  cases side <;> simp [sharesDelta]

@[simp] theorem capitalDelta_not (side : Side) (q p : Nat) :
    capitalDelta side.not q p = -capitalDelta side q p := by
  cases side <;> simp [capitalDelta]

theorem Callback.run_shares (c : Callback) (a : Account) :
    (c.run a).shares = a.shares + sharesDelta c.side c.quantity := by
  rw [c.run_eq, (Account.fill_shares_capital _ _ _ _).1]
  cases c <;> cases hs : Callback.side _ <;> rfl

theorem Callback.run_capital (c : Callback) (a : Account) :
    (c.run a).capital = a.capital + capitalDelta c.side c.quantity c.price := by
  rw [c.run_eq, (Account.fill_shares_capital _ _ _ _).2]
  cases c <;> cases hs : Callback.side _ <;> rfl

/-! ## §2 Sums over a set of accounts -/

section Sums

variable (S : Finset AccountId)

/-- The shares of the accounts of `S`, summed modulo 2^64. -/
def sharesOver (e : Engine) : Shares := ∑ a ∈ S, (e.accounts a).shares

/-- The capital of the accounts of `S`, summed modulo 2^64. -/
def capitalOver (e : Engine) : Capital := ∑ a ∈ S, (e.accounts a).capital

variable {S}

theorem sharesOver_call (e : Engine) {c : Callback} (hc : c.account ∈ S) :
    sharesOver S (e.call c) = sharesOver S e + sharesDelta c.side c.quantity := by
  have hrest : ∑ a ∈ S.erase c.account, ((e.call c).accounts a).shares =
      ∑ a ∈ S.erase c.account, (e.accounts a).shares :=
    Finset.sum_congr rfl fun a ha => by
      simp [Engine.call, Function.update_noteq (Finset.ne_of_mem_erase ha)]
  unfold sharesOver
  rw [← Finset.add_sum_erase S _ hc, ← Finset.add_sum_erase S _ hc, hrest]
  simp only [Engine.call, Function.update_same, Callback.run_shares]
  abel

theorem capitalOver_call (e : Engine) {c : Callback} (hc : c.account ∈ S) :
    capitalOver S (e.call c) = capitalOver S e + capitalDelta c.side c.quantity c.price := by
  have hrest : ∑ a ∈ S.erase c.account, ((e.call c).accounts a).capital =
      ∑ a ∈ S.erase c.account, (e.accounts a).capital :=
    Finset.sum_congr rfl fun a ha => by
      simp [Engine.call, Function.update_noteq (Finset.ne_of_mem_erase ha)]
  unfold capitalOver
  rw [← Finset.add_sum_erase S _ hc, ← Finset.add_sum_erase S _ hc, hrest]
  simp only [Engine.call, Function.update_same, Callback.run_capital]
  abel

/-- Sums that read only balances do not see a change to order sets. -/
theorem sharesOver_congr {e e' : Engine} (h : ∀ a, (e'.accounts a).shares = (e.accounts a).shares) :
    sharesOver S e' = sharesOver S e :=
  Finset.sum_congr rfl fun a _ => h a

theorem capitalOver_congr {e e' : Engine}
    (h : ∀ a, (e'.accounts a).capital = (e.accounts a).capital) :
    capitalOver S e' = capitalOver S e :=
  Finset.sum_congr rfl fun a _ => h a

end Sums

/-! ## §3 Conserving runs -/

/-- What the callbacks `cs` book to the shares of `a`: the side rule of `Account::fill`, summed
over the callbacks on `a`. -/
def sharesBooked (a : AccountId) (cs : List Callback) : Shares :=
  ((cs.filter (·.account = a)).map fun c => sharesDelta c.side c.quantity).sum

/-- What the callbacks `cs` book to the capital of `a`. -/
def capitalBooked (a : AccountId) (cs : List Callback) : Capital :=
  ((cs.filter (·.account = a)).map fun c => capitalDelta c.side c.quantity c.price).sum

@[simp] theorem sharesBooked_nil (a : AccountId) : sharesBooked a [] = 0 := rfl

@[simp] theorem capitalBooked_nil (a : AccountId) : capitalBooked a [] = 0 := rfl

@[simp] theorem sharesBooked_append (a : AccountId) (cs ds : List Callback) :
    sharesBooked a (cs ++ ds) = sharesBooked a cs + sharesBooked a ds := by
  simp [sharesBooked]

@[simp] theorem capitalBooked_append (a : AccountId) (cs ds : List Callback) :
    capitalBooked a (cs ++ ds) = capitalBooked a cs + capitalBooked a ds := by
  simp [capitalBooked]

/-- Account by account, `e'` holds the balances of `e` plus what the callbacks `cs` book. -/
def Books (e e' : Engine) (cs : List Callback) : Prop :=
  ∀ a, (e'.accounts a).shares = (e.accounts a).shares + sharesBooked a cs ∧
    (e'.accounts a).capital = (e.accounts a).capital + capitalBooked a cs

/-- Two engines whose accounts hold the same balances. -/
def SameBalances (e e' : Engine) : Prop :=
  ∀ a, (e'.accounts a).shares = (e.accounts a).shares ∧
    (e'.accounts a).capital = (e.accounts a).capital

section Books

variable {e e₁ e₂ : Engine} {cs ds : List Callback}

theorem Books.refl (e : Engine) : Books e e [] := fun _ => by simp

theorem Books.trans (h₁ : Books e e₁ cs) (h₂ : Books e₁ e₂ ds) : Books e e₂ (cs ++ ds) :=
  fun a => by simp only [(h₂ a).1, (h₂ a).2, (h₁ a).1, (h₁ a).2, sharesBooked_append,
    capitalBooked_append, add_assoc, and_self]

/-- `Books` reads of its engines only the balances. -/
theorem Books.congr (h : Books e₁ e₂ cs) {e₁' e₂' : Engine} (hb₁ : SameBalances e₁ e₁')
    (hb₂ : SameBalances e₂ e₂') : Books e₁' e₂' cs := fun a => by
  rw [(hb₂ a).1, (hb₂ a).2, (h a).1, (h a).2, ← (hb₁ a).1, ← (hb₁ a).2]
  exact ⟨rfl, rfl⟩

/-- **A callback books its side rule on its own account and nothing elsewhere.** -/
theorem Books.call (e : Engine) (c : Callback) : Books e (e.call c) [c] := fun a => by
  by_cases ha : c.account = a
  · subst ha
    simp [Engine.call, sharesBooked, capitalBooked, Callback.run_shares, Callback.run_capital]
  · simp [Engine.call, sharesBooked, capitalBooked, Function.update_noteq (Ne.symm ha), ha]

end Books

/-- Two callbacks of one fill: opposite sides, one quantity, one price. -/
def Opposite (p : Callback × Callback) : Prop :=
  p.1.side = p.2.side.not ∧ p.1.quantity = p.2.quantity ∧ p.1.price = p.2.price

/-- The fill log of a list of (maker, taker) pairs, in order. -/
def pairFills (ps : List (Callback × Callback)) : List Callback := ps.flatMap fun p => [p.1, p.2]

/-- The accounts of the map's records lie in `S`. -/
def Covers (S : Finset AccountId) (e : Engine) : Prop :=
  ∀ u m, e.orders.lookup u = some m → m.account ∈ S

instance (S : Finset AccountId) (e : Engine) : Decidable (Covers S e) :=
  decidable_of_iff (∀ s ∈ e.orders.entries, s.2.account ∈ S)
    ⟨fun h u m hm => h ⟨u, m⟩ (AList.mem_lookup_iff.mp hm),
      fun h s hs => h s.1 s.2 (AList.mem_lookup_iff.mpr hs)⟩

/-- What a run from `e` to `e'` did for a taker on `taker` of side `takerSide`: it logged (maker,
taker) pairs of opposite callbacks, the maker's on an account of `S` and the taker's on `taker` at
`takerSide`, trading `traded` shares in all; each account's balances moved by exactly what its
callbacks in the pairs book; and neither sum over `S` moved. -/
structure Conserves (S : Finset AccountId) (taker : AccountId) (takerSide : Side) (e e' : Engine)
    (traded : Nat) : Prop where
  pairs : ∃ ps : List (Callback × Callback), e'.fills = e.fills ++ pairFills ps ∧
    Books e e' (pairFills ps) ∧
    (∀ p ∈ ps, Opposite p ∧ p.1.account ∈ S ∧ p.2.account = taker ∧ p.2.side = takerSide) ∧
    (ps.map fun p => p.2.quantity).sum = traded
  shares : sharesOver S e' = sharesOver S e
  capital : capitalOver S e' = capitalOver S e

section Conserves

variable {S : Finset AccountId} {taker : AccountId} {side : Side} {e e₁ e₂ : Engine} {t : Nat}

theorem Conserves.refl (S : Finset AccountId) (taker : AccountId) (side : Side) (e : Engine) :
    Conserves S taker side e e 0 :=
  ⟨⟨[], by simp [pairFills], Books.refl e, by simp, rfl⟩, rfl, rfl⟩

/-- `Conserves` reads of its engines only the fill logs and the balances. -/
theorem Conserves.congr (h : Conserves S taker side e₁ e₂ t) {e₁' e₂' : Engine}
    (hf₁ : e₁'.fills = e₁.fills) (hb₁ : SameBalances e₁ e₁') (hf₂ : e₂'.fills = e₂.fills)
    (hb₂ : SameBalances e₂ e₂') : Conserves S taker side e₁' e₂' t := by
  obtain ⟨⟨ps, hps, hbk, hop, hv⟩, hsh, hca⟩ := h
  exact ⟨⟨ps, by rw [hf₁, hf₂, hps], hbk.congr hb₁ hb₂, hop, hv⟩,
    (sharesOver_congr fun a => (hb₂ a).1).trans (hsh.trans (sharesOver_congr fun a => (hb₁ a).1).symm),
    (capitalOver_congr fun a => (hb₂ a).2).trans (hca.trans (capitalOver_congr fun a => (hb₁ a).2).symm)⟩

/-- A step that logs and books one more opposite pair, the maker's on `S`, and moves no sum
extends a conserving run. -/
theorem Conserves.snoc (h : Conserves S taker side e e₁ t) {c₁ c₂ : Callback}
    (hf : e₂.fills = e₁.fills ++ [c₁, c₂]) (hbk : Books e₁ e₂ [c₁, c₂]) (hp : Opposite (c₁, c₂))
    (hm : c₁.account ∈ S) (ha : c₂.account = taker) (hs : c₂.side = side)
    (hsh : sharesOver S e₂ = sharesOver S e₁) (hca : capitalOver S e₂ = capitalOver S e₁) :
    Conserves S taker side e e₂ (t + c₂.quantity) := by
  obtain ⟨⟨ps, hps, hbk₁, hop, hv⟩, hsh₁, hca₁⟩ := h
  have hpf : pairFills (ps ++ [(c₁, c₂)]) = pairFills ps ++ [c₁, c₂] := by simp [pairFills]
  refine ⟨⟨ps ++ [(c₁, c₂)], by rw [hf, hps, hpf, List.append_assoc], hpf ▸ hbk₁.trans hbk, ?_,
    by simp [hv]⟩, hsh.trans hsh₁, hca.trans hca₁⟩
  simp only [List.mem_append, List.mem_singleton]
  rintro p (hp' | rfl)
  exacts [hop p hp', ⟨hp, hm, ha, hs⟩]

/-- The fill log of `e'` extends that of `e` by opposite (maker, taker) pairs between accounts of
`S`, and each account's balances in `e'` are those in `e` plus what the pairs book to it. -/
def FillsBetween (S : Finset AccountId) (e e' : Engine) : Prop :=
  ∃ ps : List (Callback × Callback), e'.fills = e.fills ++ pairFills ps ∧
    Books e e' (pairFills ps) ∧ ∀ p ∈ ps, Opposite p ∧ p.1.account ∈ S ∧ p.2.account ∈ S

theorem FillsBetween.refl (S : Finset AccountId) (e : Engine) : FillsBetween S e e :=
  ⟨[], by simp [pairFills], Books.refl e, by simp⟩

/-- A call that logs nothing and moves no balance. -/
theorem FillsBetween.of_same (hf : e₁.fills = e.fills) (hb : SameBalances e e₁) :
    FillsBetween S e e₁ :=
  ⟨[], by simp [pairFills, hf], (Books.refl e).congr (fun _ => ⟨rfl, rfl⟩) hb, by simp⟩

theorem FillsBetween.trans (h₁ : FillsBetween S e e₁) (h₂ : FillsBetween S e₁ e₂) :
    FillsBetween S e e₂ := by
  obtain ⟨ps, hf₁, hb₁, hp₁⟩ := h₁
  obtain ⟨qs, hf₂, hb₂, hp₂⟩ := h₂
  have hpf : pairFills (ps ++ qs) = pairFills ps ++ pairFills qs := by simp [pairFills]
  refine ⟨ps ++ qs, by rw [hf₂, hf₁, hpf, List.append_assoc], hpf ▸ hb₁.trans hb₂, ?_⟩
  simp only [List.mem_append]
  rintro p (hp | hp)
  exacts [hp₁ p hp, hp₂ p hp]

/-- A conserving run for a taker of `S` logs fills between accounts of `S`. -/
theorem Conserves.fillsBetween (h : Conserves S taker side e e₁ t) (ht : taker ∈ S) :
    FillsBetween S e e₁ := by
  obtain ⟨⟨ps, hf, hb, hp, -⟩, -, -⟩ := h
  exact ⟨ps, hf, hb, fun p hm => ⟨(hp p hm).1, (hp p hm).2.1, (hp p hm).2.2.1 ▸ ht⟩⟩

/-- Resting an order books nothing: it only adds the uid to the account's order set. -/
theorem limit_balance (side : Side) {e e₁ : Engine} (he : e₁.accounts = e.accounts) (o : Order) :
    SameBalances e (LimitTree.limit side e₁ o) := by
  intro a
  by_cases ha : a = o.account
  · subst ha; simp [LimitTree.limit, Account.limit, he]
  · simp [LimitTree.limit, Function.update_noteq ha, he]

end Conserves

/-! ## §4 The matching loop -/

section Round

variable {side : Side} {extra : List Nat} {S : Finset AccountId} {e₀ e e' : Engine} {o o' : Order}

/-- **What a round books.** It fires the callback of a resting order `m` of the tree's side, then
the taker's, each for the quantity the taker lost, at one price. -/
theorem marketStep_fill (hb : BookOk extra e) (hs : LimitTree.marketStep side e o = some (e', o')) :
    ∃ c₁ c₂ : Callback, e'.fills = e.fills ++ [c₁, c₂] ∧
      e'.accounts = ((e.call c₁).call c₂).accounts ∧ c₁.side = side ∧ c₂.side = o.side ∧
      c₁.quantity = c₂.quantity ∧ c₂.quantity = o.quantity - o'.quantity ∧ c₁.price = c₂.price ∧
      c₂.account = o.account ∧ ∃ u m, e.orders.lookup u = some m ∧ c₁.account = m.account := by
  obtain ⟨key, l, uid, m, -, -, -, hl, hu, hm, hr⟩ := marketStep_eq_some hs
  have hq : uid ∈ (e.trees side).queued :=
    mem_queued.mpr ⟨l, (find_some hl).1, List.mem_of_mem_head? hu⟩
  have hms := (hb.lookup_queued hq hm).2.1
  split at hr
  · obtain ⟨rfl, rfl⟩ := Prod.ext_iff.mp hr
    refine ⟨.limitFill m o, takerCallback m o, by simp, rfl, hms, ?_, ?_, ?_, ?_, ?_,
      uid, m, hm, rfl⟩ <;> unfold takerCallback <;> split <;>
      simp [Callback.side, Callback.quantity, Callback.price, Callback.account] <;> omega
  · obtain ⟨rfl, rfl⟩ := Prod.ext_iff.mp hr
    exact ⟨_, _, by simp, rfl, hms, rfl, rfl, by simp [Callback.quantity], rfl, rfl, uid, m, hm, rfl⟩

/-- **One round conserves positions**: the maker's callback and the taker's are opposite, on
accounts of `S`, each booking its side rule on its own account, so neither sum moves. -/
theorem Conserves.marketStep {t : Nat} (h : Conserves S o.account o.side e₀ e t) (hb : BookOk extra e)
    (hS : Covers S e) (ho : o.account ∈ S) (hside : o.side = side.not)
    (hs : LimitTree.marketStep side e o = some (e', o')) :
    Conserves S o.account o.side e₀ e' (t + (o.quantity - o'.quantity)) := by
  obtain ⟨c₁, c₂, hf, hacc, hs₁, hs₂, hq, hq₂, hp, ha₂, u, m, hm, ha₁⟩ := marketStep_fill hb hs
  have hc₁ : c₁.account ∈ S := ha₁ ▸ hS u m hm
  have hc₂ : c₂.account ∈ S := ha₂ ▸ ho
  have hacc' : ∀ a, e'.accounts a = ((e.call c₁).call c₂).accounts a := fun a => by rw [hacc]
  have hbk : Books e e' [c₁, c₂] := ((Books.call e c₁).trans (Books.call _ c₂)).congr
    (fun _ => ⟨rfl, rfl⟩) fun a => by rw [hacc' a]; exact ⟨rfl, rfl⟩
  rw [← hq₂]
  refine h.snoc hf hbk ⟨by rw [hs₁, hs₂, hside, Side.not_not], hq, hp⟩ hc₁ ha₂ hs₂ ?_ ?_
  · rw [sharesOver_congr fun a => congrArg Account.shares (hacc' a), sharesOver_call _ hc₂,
      sharesOver_call _ hc₁, hs₁, hs₂, hside, hq, sharesDelta_not]
    abel
  · rw [capitalOver_congr fun a => congrArg Account.capital (hacc' a), capitalOver_call _ hc₂,
      capitalOver_call _ hc₁, hs₁, hs₂, hside, hq, hp, capitalDelta_not]
    abel

/-- A round keeps the map's accounts in `S`: it erases a record or lowers its quantity. -/
theorem Covers.marketStep (hS : Covers S e) (hs : LimitTree.marketStep side e o = some (e', o')) :
    Covers S e' := fun u m' hu => by
  obtain ⟨m, hm, hm'⟩ := marketStep_lookup hs hu
  exact hm' ▸ hS u m hm

end Round

/-- **A run of the matching loop conserves positions**: it logs opposite pairs whose maker
callbacks are on accounts of `S` and whose taker callbacks are the taker's, books each on its
account, trades what the taker lost, and moves no sum over a set `S` of accounts that holds the
taker's and those of the map. -/
theorem BookOk.market_conserves {extra : List Nat} {S : Finset AccountId} {e : Engine}
    (hb : BookOk extra e) (hS : Covers S e) (side : Side) (o : Order) (ho : o.account ∈ S)
    (hside : o.side = side.not) :
    Conserves S o.account o.side e (LimitTree.market side e o).1
      (o.quantity - (LimitTree.market side e o).2.quantity) := by
  refine (marketLoop_invariant (P := fun e' o' => BookOk extra e' ∧ Covers S e' ∧
    o'.side = o.side ∧ o'.account = o.account ∧ o'.quantity ≤ o.quantity ∧
    Conserves S o.account o.side e e' (o.quantity - o'.quantity)) ?_ _ e o
    ⟨hb, hS, rfl, rfl, le_rfl, by simpa using Conserves.refl S o.account o.side e⟩).2.2.2.2.2
  rintro e₁ o₁ e₂ o₂ ⟨hb₁, hS₁, hside₁, ha₁, hq₁, hc₁⟩ hs
  obtain ⟨ho₂, hq₂⟩ := marketStep_taker hs
  rw [← ha₁, ← hside₁] at hc₁
  have hc₂ := hc₁.marketStep hb₁ hS₁ (ha₁ ▸ ho) (hside₁.trans hside) hs
  refine ⟨(hb₁.marketStep hs).1, hS₁.marketStep hs, (congrArg Order.side ho₂).trans hside₁,
    (congrArg Order.account ho₂).trans ha₁, hq₂.trans hq₁, ?_⟩
  rwa [ha₁, hside₁, Nat.sub_add_sub_cancel hq₁ hq₂] at hc₂

/-! ## §5 The calls -/

/-- What `limit` leaves resting of its order: nothing when it returns 0, else the quantity the map
holds under the uid it returns. -/
def restingOf (r : Nat × Engine) : Nat := if r.1 = 0 then 0 else quantityOf r.2.orders r.1

section Calls

variable {S : Finset AccountId} {e : Engine} {account : AccountId}

theorem Covers.insert (hS : Covers S e) {u : Nat} (o : Order) (ho : o.account ∈ S) {e' : Engine}
    (he : e'.orders = e.orders.insert u o) : Covers S e' := fun v m hv => by
  rw [he] at hv
  by_cases hvu : v = u
  · subst hvu; rw [AList.lookup_insert] at hv; cases hv; exact ho
  · rw [AList.lookup_insert_ne hvu] at hv; exact hS v m hv

theorem Covers.erase (hS : Covers S e) (u : Nat) {e' : Engine} (he : e'.orders = e.orders.erase u) :
    Covers S e' := fun v m hv => by
  rw [he] at hv
  by_cases hvu : v = u
  · subst hvu; rw [AList.lookup_erase] at hv; cases hv
  · rw [AList.lookup_erase_ne hvu] at hv; exact hS v m hv

theorem Covers.market (hS : Covers S e) (side : Side) (o : Order) :
    Covers S (LimitTree.market side e o).1 :=
  marketLoop_invariant (P := fun e _ => Covers S e) (fun _ _ _ _ h hs => h.marketStep hs) _ e o hS

/-- `limit_sell` / `limit_buy` for an account of `S` keep the map's accounts in `S`. -/
theorem Inv.limitSide_covers (h : Inv e) (hS : Covers S e) (ha : account ∈ S) (side : Side)
    (quantity price : Nat) : Covers S (LimitOrderBook.limitSide side e account quantity price).2 := by
  have hfresh : e.sequence ∉ e.orders := fun hm => Nat.lt_irrefl _ (h.fresh _ hm)
  let o : Order := ⟨e.sequence, side, quantity, price, none, account⟩
  let e₁ : Engine := { e with orders := e.orders.insert e.sequence o }
  have h₁ : Covers S e₁ := hS.insert o ha rfl
  have hr := ((h.book.emplace hfresh o).market side.not o).2.2.2.1
  let r := LimitTree.market side.not e₁ o
  have hra : r.2.account ∈ S := by rw [hr]; exact ha
  have h₂ : Covers S { r.1 with orders := r.1.orders.insert e.sequence r.2 } :=
    (h₁.market side.not o).insert _ hra rfl
  rcases limitSide_cases side account quantity price hfresh with ⟨-, heq⟩ | ⟨-, -, heq⟩ |
    ⟨-, -, heq⟩ <;> rw [heq]
  exacts [h₁.insert _ ha rfl, h₂.erase _ rfl, h₂.insert { r.2 with limit := some r.2.price } hra rfl]

/-- **`limit_sell` / `limit_buy` conserve positions**, in each of their three outcomes: they trade
the quantity of the order less what they leave resting. -/
theorem Inv.limitSide_conserves (h : Inv e) (hS : Covers S e) (ha : account ∈ S) (side : Side)
    (quantity price : Nat) :
    Conserves S account side e (LimitOrderBook.limitSide side e account quantity price).2
      (quantity - restingOf (LimitOrderBook.limitSide side e account quantity price)) := by
  have hfresh : e.sequence ∉ e.orders := fun hm => Nat.lt_irrefl _ (h.fresh _ hm)
  have hseq : e.sequence ≠ 0 := Nat.pos_iff_ne_zero.mp h.sequence_pos
  let o : Order := ⟨e.sequence, side, quantity, price, none, account⟩
  have hloop := (h.book.emplace hfresh o).market_conserves (hS.insert o ha rfl) side.not o ha
    (Side.not_not side).symm
  have huid := congrArg Order.uid ((h.book.emplace hfresh o).market side.not o).2.2.2.1
  have hsame : ∀ e', SameBalances e' e' := fun _ _ => ⟨rfl, rfl⟩
  rcases limitSide_cases side account quantity price hfresh with ⟨-, heq⟩ | ⟨-, hq, heq⟩ |
    ⟨-, -, heq⟩ <;> rw [heq]
  · -- the order rests untouched: nothing is traded
    simp only [restingOf, if_neg hseq, limit_orders, quantityOf, AList.lookup_insert,
      Option.map_some', Option.getD_some, Nat.sub_self]
    refine (Conserves.refl S account side e).congr ?_ ?_ ?_ ?_
    exacts [rfl, hsame e, rfl, limit_balance side rfl _]
  · -- the order is filled and dropped
    rw [hq] at hloop
    simp only [restingOf, if_pos]
    refine hloop.congr ?_ ?_ ?_ ?_
    exacts [rfl, hsame e, rfl, hsame _]
  · -- what is left of the order rests
    simp only [restingOf, if_neg hseq, limit_orders, huid, quantityOf, AList.lookup_insert,
      Option.map_some', Option.getD_some]
    refine hloop.congr ?_ ?_ ?_ ?_
    exacts [rfl, hsame e, rfl, limit_balance side rfl _]

/-- **`market_sell` / `market_buy` conserve positions**: they trade the quantity of the order less
what is left of it, which is dropped. -/
theorem Inv.marketSide_conserves (h : Inv e) (hS : Covers S e) (ha : account ∈ S) (side : Side)
    (quantity : Nat) :
    Conserves S account side e (LimitOrderBook.marketSide side e account quantity)
      (quantity - (LimitTree.market side.not e ⟨e.sequence, side, quantity, 0, none, account⟩).2.quantity) :=
  h.book.market_conserves hS side.not ⟨e.sequence, side, quantity, 0, none, account⟩ ha
    (Side.not_not side).symm

/-- `cancel` books nothing: it only takes the uid out of the account's order set. -/
theorem cancel_balance (side : Side) (e : Engine) (o : Order) :
    SameBalances e (LimitTree.cancel side e o) := by
  intro a
  by_cases ha : a = o.account
  · subst ha; simp [LimitTree.cancel, Account.cancel]
  · simp [LimitTree.cancel, Function.update_noteq ha]

/-- **Each call the server makes conserves positions**: `limit`, `market` and `cancel`, for an
account of `S`, keep the map's accounts in `S`, log only fills between accounts of `S`, each
booked on its account, and move neither sum over `S`. -/
theorem Inv.apply_conserves (h : Inv e) (hS : Covers S e) {r : Request} (hr : r.Reported)
    (ha : ∀ a, r.account = some a → a ∈ S) {e' : Engine} (happ : r.apply e = .ok e') :
    Covers S e' ∧ FillsBetween S e e' ∧ sharesOver S e' = sharesOver S e ∧
      capitalOver S e' = capitalOver S e := by
  cases r with
  | limit account side quantity price =>
    cases happ
    have hc := h.limitSide_conserves hS (ha account rfl) side quantity price
    rw [limit_eq_limitSide]
    exact ⟨h.limitSide_covers hS (ha account rfl) side quantity price,
      hc.fillsBetween (ha account rfl), hc.shares, hc.capital⟩
  | market account side quantity =>
    cases happ
    have hc := h.marketSide_conserves hS (ha account rfl) side quantity
    rw [market_eq_marketSide]
    exact ⟨hS.market _ _, hc.fillsBetween (ha account rfl), hc.shares, hc.capital⟩
  | cancel uid =>
    change LimitOrderBook.cancel e uid = .ok e' at happ
    unfold LimitOrderBook.cancel at happ
    split at happ
    · cases happ
    case h_2 o _ =>
      cases happ
      have hb := cancel_balance o.side e o
      exact ⟨hS.erase uid rfl, .of_same rfl hb, sharesOver_congr fun a => (hb a).1,
        capitalOver_congr fun a => (hb a).2⟩
  | reduce => exact hr.elim
  | clear => exact hr.elim

end Calls

/-- **Runs of calls for accounts of `S` conserve positions**: along every run of `limit`, `market`
and `cancel` calls for accounts of `S`, from a book satisfying the invariant whose map holds only
orders of `S`, the invariant holds, the map holds only orders of `S`, the fill log grows only by
opposite pairs between accounts of `S`, each account's balances move by exactly what the log
books to it, and neither sum over `S` moves. -/
theorem Reachable.conserves {S : Finset AccountId} {e₀ e : Engine}
    (h : Reachable (fun r => r.Reported ∧ ∀ a, r.account = some a → a ∈ S) e₀ e) (h₀ : Inv e₀)
    (hS₀ : Covers S e₀) :
    Inv e ∧ Covers S e ∧ FillsBetween S e₀ e ∧ sharesOver S e = sharesOver S e₀ ∧
      capitalOver S e = capitalOver S e₀ := by
  induction h with
  | start => exact ⟨h₀, hS₀, .refl S _, rfl, rfl⟩
  | step r hr _ happ ih =>
    obtain ⟨hi, hS, hf, hsh, hca⟩ := ih
    obtain ⟨hS', hf', hsh', hca'⟩ := hi.apply_conserves hS hr.1 hr.2 happ
    exact ⟨hi.apply r happ, hS', hf.trans hf', hsh'.trans hsh, hca'.trans hca⟩

/-- The value a callback books to its account's capital in exact integer arithmetic:
`+ quantity * price` for a sell, `- quantity * price` for a buy. -/
def Callback.exactValue (c : Callback) : Int :=
  match c.side with
  | .sell => c.quantity * c.price
  | .buy => -(c.quantity * c.price : Int)

/-- An account's capital in exact integer arithmetic: the sum of the values its callbacks in
`fills` book. -/
def exactCapital (a : AccountId) (fills : List Callback) : Int :=
  ((fills.filter (·.account = a)).map Callback.exactValue).sum

/-- **A trade worth 2^64 books nothing.** On an empty book `A` rests a sell of 2 shares at
2^63 and `B` buys 2 at market, both within the protocol's ranges. The trade is worth 2^64, so in
exact arithmetic `A`'s capital is 2^64 and `B`'s is -2^64. `Account::fill` books the product
modulo 2^64, and both capitals stay 0. -/
theorem capital_wraps_on_admitted_trade :
    ((LimitOrderBook.market (LimitOrderBook.limit (Engine.init fun _ => Account.new) "A" .sell 2
        (2 ^ 63)).2 "B" .buy 2).accounts "A").capital.toInt = 0 ∧
      exactCapital "A" (LimitOrderBook.market (LimitOrderBook.limit (Engine.init fun _ => Account.new)
        "A" .sell 2 (2 ^ 63)).2 "B" .buy 2).fills = 2 ^ 64 ∧
      ((LimitOrderBook.market (LimitOrderBook.limit (Engine.init fun _ => Account.new) "A" .sell 2
        (2 ^ 63)).2 "B" .buy 2).accounts "B").capital.toInt = 0 ∧
      exactCapital "B" (LimitOrderBook.market (LimitOrderBook.limit (Engine.init fun _ => Account.new)
        "A" .sell 2 (2 ^ 63)).2 "B" .buy 2).fills = -2 ^ 64 :=
  ⟨rfl, rfl, rfl, rfl⟩

end CboeEmulator.OrderEntry.LOB

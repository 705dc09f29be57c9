import CboeEmulator.OrderEntry.Reachable

/-!
# Order-Entry Book: Accounts and their Active Orders

`Account::orders` is the set of an account's active orders. The book keeps it by the virtual
callbacks: `Account::limit` when an order rests, `Account::cancel` when one is canceled, and
`limit_fill` when a resting order is filled entirely. This file proves that these keep each
account's set equal to the orders of that account in the UID map, over every run that never
calls `clear`, and that `clear` breaks it: it empties the map and leaves the sets as they were.

## Main results

- `AccountsOk.apply`: every call but `clear` that returns normally keeps the sets exact;
- `reachable_account_orders`: on every book reached without `clear` the sets are exact;
- `clear_keeps_account_orders`: after `clear` an account still holds an order the map has lost.
-/

namespace CboeEmulator.OrderEntry.LOB

open LimitTree LimitOrderBook

/-! ## §1 What a callback does to an account's set -/

/-- No callback but `limit_fill` touches an account's set. -/
theorem Engine.call_orders_of_ne {c : Callback} (hc : ∀ l m, c ≠ .limitFill l m) (e : Engine)
    (a : AccountId) : ((e.call c).accounts a).orders = (e.accounts a).orders := by
  unfold Engine.call
  by_cases ha : a = c.account
  · subst ha
    cases c <;> simp_all [Callback.run_orders]
  · simp [Function.update_noteq ha]

/-- `limit_fill` drops the resting order from its own account's set. -/
theorem Engine.call_limitFill_orders (e : Engine) (l m : Order) (a : AccountId) :
    ((e.call (.limitFill l m)).accounts a).orders =
      if a = l.account then (e.accounts a).orders.erase l.uid else (e.accounts a).orders := by
  unfold Engine.call
  by_cases ha : a = l.account
  · subst ha; simp [Callback.account, Callback.run_orders]
  · simp [Callback.account, ha]

theorem takerCallback_ne (m o : Order) : ∀ l m', takerCallback m o ≠ .limitFill l m' := by
  intro l m'; unfold takerCallback; split <;> exact Callback.noConfusion

/-! ## §2 Exact sets -/

/-- Every account's set holds exactly the uids the map holds for that account, the uids of
`extra` apart, which no account holds (the incoming order of `limit_sell` / `limit_buy` is in the
map while it matches, and joins its account's set only when it rests). -/
def AccountsOk (extra : List Nat) (e : Engine) : Prop :=
  ∀ a u, u ∈ (e.accounts a).orders ↔ u ∉ extra ∧ ∃ o, e.orders.lookup u = some o ∧ o.account = a

section Steps

variable {extra : List Nat} {e e' : Engine}

/-- Dropping a mapped order from the map and from its account's set keeps the sets exact. -/
theorem AccountsOk.removeOrder (h : AccountsOk extra e) (o : Order)
    (hm : e.orders.lookup o.uid = some o)
    (hacc : ∀ a, (e'.accounts a).orders =
      if a = o.account then (e.accounts a).orders.erase o.uid else (e.accounts a).orders)
    (hord : e'.orders = e.orders.erase o.uid) : AccountsOk extra e' := by
  intro a u
  rw [hacc, hord]
  by_cases hu : u = o.uid
  · subst hu
    simp only [AList.lookup_erase, reduceCtorEq, false_and, exists_false, and_false, iff_false]
    split_ifs with ha
    · simp
    · rw [h a o.uid, hm]
      rintro ⟨-, _, ho, rfl⟩
      exact ha (Option.some.inj ho ▸ rfl)
  · rw [AList.lookup_erase_ne hu]
    split <;> simp [Finset.mem_erase, hu, h a u]

/-- Rewriting a mapped order without moving it to another account keeps the sets exact. -/
theorem AccountsOk.updateOrder (h : AccountsOk extra e) {u : Nat} {o : Order}
    (hm : e.orders.lookup u = some o) (o' : Order) (hacct : o'.account = o.account)
    (hacc : ∀ a, (e'.accounts a).orders = (e.accounts a).orders)
    (hord : e'.orders = e.orders.insert u o') : AccountsOk extra e' := by
  intro a v
  rw [hacc, hord, h a v]
  by_cases hv : v = u
  · subst hv; simp [hm, hacct]
  · rw [AList.lookup_insert_ne hv]

/-- **A round of the loop keeps the sets exact**: a maker filled entirely leaves both the map and
its account's set, a maker filled in part stays in both. -/
theorem AccountsOk.marketStep (h : AccountsOk extra e) (hb : BookOk extra e) {side : Side}
    {o o' : Order} (hs : LimitTree.marketStep side e o = some (e', o')) : AccountsOk extra e' := by
  obtain ⟨key, l, uid, m, -, -, -, hl, hu, hm, hr⟩ := marketStep_eq_some hs
  have hq : uid ∈ (e.trees side).queued :=
    mem_queued.mpr ⟨l, (find_some hl).1, List.mem_of_mem_head? hu⟩
  split at hr <;> obtain ⟨rfl, rfl⟩ := Prod.ext_iff.mp hr
  · obtain ⟨rfl, -⟩ := hb.lookup_queued hq hm
    refine h.removeOrder m hm (fun a => ?_) rfl
    rw [fillMaker_accounts, Engine.call_orders_of_ne (takerCallback_ne m o),
      Engine.call_limitFill_orders]
  · exact h.updateOrder hm { m with quantity := m.quantity - o.quantity } rfl (fun a => by
      rw [fillTaker_accounts, Engine.call_orders_of_ne (fun _ _ => Callback.noConfusion),
        Engine.call_orders_of_ne (fun _ _ => Callback.noConfusion)]) rfl

/-- The whole matching loop keeps the sets exact. -/
theorem AccountsOk.market (h : AccountsOk extra e) (hb : BookOk extra e) (side : Side) (o : Order) :
    AccountsOk extra (LimitTree.market side e o).1 :=
  (marketLoop_invariant (P := fun e _ => BookOk extra e ∧ AccountsOk extra e)
    (fun _ _ _ _ ⟨hb, h⟩ hs => ⟨(hb.marketStep hs).1, h.marketStep hb hs⟩) _ e o ⟨hb, h⟩).2

end Steps

/-! ## §3 The incoming order -/

section Incoming

variable {e : Engine} {u : Nat}

theorem AccountsOk.emplace (h : AccountsOk [] e) (hu : u ∉ e.orders) (o : Order) :
    AccountsOk [u] { e with orders := e.orders.insert u o } := by
  intro a v
  show v ∈ (e.accounts a).orders ↔ v ∉ [u] ∧ ∃ o', (e.orders.insert u o).lookup v = some o' ∧
    o'.account = a
  rw [h a v]
  by_cases hv : v = u
  · subst hv
    refine iff_of_false ?_ fun h' => h'.1 (List.mem_singleton_self _)
    rintro ⟨-, o', ho', -⟩
    exact hu (mem_of_lookup ho')
  · simp [hv, AList.lookup_insert_ne hv]

theorem AccountsOk.rewrite (h : AccountsOk [u] e) (o : Order) :
    AccountsOk [u] { e with orders := e.orders.insert u o } := by
  intro a v
  rw [h a v]
  by_cases hv : v = u
  · subst hv; simp
  · simp [hv, AList.lookup_insert_ne hv]

theorem AccountsOk.erase (h : AccountsOk [u] e) : AccountsOk [] { e with orders := e.orders.erase u } := by
  intro a v
  rw [h a v]
  by_cases hv : v = u
  · subst hv; simp
  · simp [hv, AList.lookup_erase_ne hv]

/-- Resting the incoming order adds it to its account's set as it joins the tree. -/
theorem AccountsOk.limit (side : Side) {o : Order} (h : AccountsOk [u] e) (hu : o.uid = u) :
    AccountsOk [] (LimitTree.limit side e o) := by
  subst hu
  intro a v
  simp only [LimitTree.limit, Function.update_apply]
  split_ifs with ha
  · subst ha
    by_cases hv : v = o.uid
    · subst hv; simp [Account.limit]
    · simp [Account.limit, hv, h o.account v, AList.lookup_insert_ne hv]
  · by_cases hv : v = o.uid
    · subst hv
      rw [h a o.uid]
      simp only [List.mem_singleton, not_true_eq_false, false_and, AList.lookup_insert,
        Option.some.injEq, exists_eq_left', List.not_mem_nil, not_false_eq_true, true_and,
        false_iff]
      exact fun he => ha he.symm
    · simp [h a v, hv, AList.lookup_insert_ne hv]

end Incoming

/-! ## §4 Every call but `clear` -/

section Calls

variable {e e' : Engine}

theorem AccountsOk.limitSide (h : AccountsOk [] e) (hi : Inv e) (side : Side) (account : AccountId)
    (quantity price : Nat) : AccountsOk [] (limitSide side e account quantity price).2 := by
  have hfresh : e.sequence ∉ e.orders := fun hm => Nat.lt_irrefl _ (hi.fresh _ hm)
  set o : Order := ⟨e.sequence, side, quantity, price, none, account⟩
  set r := LimitTree.market side.not { e with orders := e.orders.insert e.sequence o } o
  have hb₁ := hi.book.emplace hfresh o
  have h₁ := h.emplace hfresh o
  have h₂ := h₁.market hb₁ side.not o
  obtain ⟨-, -, -, ho₂, -⟩ := hb₁.market side.not o
  rcases limitSide_cases side account quantity price hfresh with ⟨-, heq⟩ | ⟨-, -, heq⟩ |
    ⟨-, -, heq⟩ <;> rw [heq]
  · exact h₁.limit side rfl
  · exact (h₂.rewrite _).erase
  · exact (h₂.rewrite _).limit side (show r.2.uid = e.sequence by rw [ho₂])

theorem AccountsOk.marketSide (h : AccountsOk [] e) (hi : Inv e) (side : Side) (account : AccountId)
    (quantity : Nat) : AccountsOk [] (marketSide side e account quantity) :=
  h.market hi.book side.not _

theorem AccountsOk.cancel (h : AccountsOk [] e) (hi : Inv e) {uid : Nat}
    (hr : LimitOrderBook.cancel e uid = .ok e') : AccountsOk [] e' := by
  unfold LimitOrderBook.cancel at hr
  split at hr
  · cases hr
  case h_2 o hm =>
    cases hr
    obtain ⟨-, rfl⟩ := hi.book.queued_of_lookup hm
    refine h.removeOrder o hm (fun a => ?_) rfl
    by_cases ha : a = o.account
    · subst ha; simp [LimitTree.cancel]
    · simp [LimitTree.cancel, Function.update_noteq ha, ha]

theorem AccountsOk.reduce (h : AccountsOk [] e) (hi : Inv e) {uid quantity : Nat}
    (hr : LimitOrderBook.reduce e uid quantity = .ok e') : AccountsOk [] e' := by
  unfold LimitOrderBook.reduce at hr
  split at hr
  · cases hr
  next o hm =>
  split at hr
  · cases hr
  split at hr
  · cases hr
  next key _ =>
  obtain ⟨-, rfl⟩ := hi.book.queued_of_lookup hm
  have h₁ : AccountsOk [] { e with
      trees := Function.update e.trees o.side ((e.trees o.side).reduceVolume key quantity),
      orders := e.orders.insert o.uid { o with quantity := o.quantity - quantity } } :=
    h.updateOrder hm { o with quantity := o.quantity - quantity } rfl (fun _ => rfl) rfl
  dsimp only at hr
  split at hr <;> cases hr
  · refine h₁.removeOrder { o with quantity := o.quantity - quantity } (AList.lookup_insert _)
      (fun a => ?_) rfl
    by_cases ha : a = o.account
    · subst ha; simp [LimitTree.cancel]
    · simp [LimitTree.cancel, Function.update_noteq ha, ha]
  · exact h₁

/-- **Every call but `clear` that returns normally keeps the sets exact.** -/
theorem AccountsOk.apply (h : AccountsOk [] e) (hi : Inv e) (r : Request) (hc : r ≠ .clear)
    (hr : r.apply e = .ok e') : AccountsOk [] e' := by
  cases r with
  | limit account side quantity price =>
    cases hr; cases side
    · exact h.limitSide hi .sell account quantity price
    · exact h.limitSide hi .buy account quantity price
  | market account side quantity =>
    cases hr; cases side
    · exact h.marketSide hi .sell account quantity
    · exact h.marketSide hi .buy account quantity
  | cancel uid => exact h.cancel hi hr
  | reduce uid quantity => exact h.reduce hi hr
  | clear => exact absurd rfl hc

end Calls

/-! ## §5 Reachable books -/

/-- Accounts with no active orders beside an empty book. -/
theorem AccountsOk.init {accounts : AccountId → Account} (h₀ : ∀ a, (accounts a).orders = ∅) :
    AccountsOk [] (Engine.init accounts) :=
  fun a u => by simp [Engine.init, h₀]

/-- **Calls other than `clear` keep the invariant and the exact account sets**, along a whole
run. -/
theorem Reachable.accountsOk {allowed : Request → Prop} (hc : ∀ r, allowed r → r ≠ .clear)
    {e₀ e : Engine} (h : Reachable allowed e₀ e) (h₀ : Inv e₀ ∧ AccountsOk [] e₀) :
    Inv e ∧ AccountsOk [] e := by
  induction h with
  | start => exact h₀
  | step r hr _ ha ih => exact ⟨ih.1.apply r ha, ih.2.apply ih.1 r (hc r hr) ha⟩

/-- **On every book reached from the empty one without `clear`**, starting from accounts with no
active orders, an account's set holds exactly the uids of its orders in the map. -/
theorem reachable_account_orders (accounts : AccountId → Account)
    (h₀ : ∀ a, (accounts a).orders = ∅) {e : Engine}
    (h : Reachable (fun r => r ≠ .clear) (Engine.init accounts) e) (a : AccountId) (u : Nat) :
    u ∈ (e.accounts a).orders ↔ ∃ o, e.orders.lookup u = some o ∧ o.account = a := by
  simpa using (h.accountsOk (fun _ => id) ⟨Inv.init accounts, AccountsOk.init h₀⟩).2 a u

theorem account_orders_after_limit :
    (1 ∈ (((LimitOrderBook.limit (Engine.init fun _ => Account.new) "A" .sell 10 100).2.accounts
      "A").orders) ↔ ∃ o, (LimitOrderBook.limit (Engine.init fun _ => Account.new) "A" .sell 10
        100).2.orders.lookup 1 = some o ∧ o.account = "A") :=
  reachable_account_orders _ (fun _ => rfl) (.step (.limit "A" .sell 10 100) (by decide) .start rfl)
    "A" 1

/-- `clear` breaks the sets: after an order rests and the book is cleared, its account still
holds its uid while the map holds nothing under it. -/
theorem clear_keeps_account_orders :
    Reachable (fun _ => True) (Engine.init fun _ => Account.new)
      (LimitOrderBook.clear (LimitOrderBook.limit (Engine.init fun _ => Account.new) "A" .sell 10 100).2) ∧
    1 ∈ ((LimitOrderBook.clear (LimitOrderBook.limit (Engine.init fun _ => Account.new) "A" .sell 10
      100).2).accounts "A").orders ∧
    (LimitOrderBook.clear (LimitOrderBook.limit (Engine.init fun _ => Account.new) "A" .sell 10
      100).2).orders.lookup 1 = none :=
  ⟨.step .clear trivial (.step (.limit "A" .sell 10 100) trivial .start rfl) rfl, by decide, by decide⟩

end CboeEmulator.OrderEntry.LOB

import CboeEmulator.OrderEntry.Reachable

/-!
# Order-Entry Book: Fresh and Consecutive Uids

`LimitOrderBook` hands out uids from `sequence`. The counter starts at 1 and goes back to 1 on
`clear`. It moves only when `limit_sell` / `limit_buy` rest an order, and then by one. An order
filled on entry is erased under the counter's uid and leaves the counter where it was. So every
key of the map lies in `[1, sequence)`, and the uid a `limit` emplaces is new to the map. The
matching loop erases only the makers it fills, never the incoming order, whose uid no level
queues. The non-zero uids `limit` returns since the start or the last `clear` are 1, 2, 3, …
in call order.

## Main results

- `Inv.limitSide_result`: `limit` returns 0 and leaves the counter, or returns the counter's uid
  and advances it by one;
- `Inv.mem_apply`: every key of the map after a call was a key before or is the counter's uid;
- `Issued`: runs of calls together with the non-zero uids `limit` returned on the way;
- `uids_fresh_consecutive`: on every reachable book the map's keys lie in `[1, sequence)`, and
  the non-zero uids `limit` has returned are 1, 2, 3, … in call order.
-/

namespace CboeEmulator.OrderEntry.LOB

open LimitTree LimitOrderBook

/-! ## §1 Runs and the uids they issue -/

/-- The non-zero uids issued since the start or the last `clear`, in call order, once the call
has run on the book `e` after `us`: a `limit` that returns a non-zero uid appends it, `clear`
starts afresh, and every other call issues nothing. -/
def Request.issue : Request → Engine → List Nat → List Nat
  | .limit account side quantity price, e, us =>
    if (LimitOrderBook.limit e account side quantity price).1 = 0 then us
    else us ++ [(LimitOrderBook.limit e account side quantity price).1]
  | .clear, _, _ => []
  | _, _, us => us

/-- **Runs with the uids they issue**: the books reachable from `e₀` by calls that return
normally, each with the non-zero uids `limit` returned since `e₀` or the last `clear`. -/
inductive Issued (e₀ : Engine) : Engine → List Nat → Prop
  | start : Issued e₀ e₀ []
  | step {e e' : Engine} {us : List Nat} (r : Request) : Issued e₀ e us → r.apply e = .ok e' →
      Issued e₀ e' (r.issue e us)

/-! ## §2 What one call does to the keys and the counter -/

section Calls

variable {e e' : Engine}

/-- The counter's uid is free in the map of a book satisfying the invariant. -/
theorem Inv.sequence_not_mem (h : Inv e) : e.sequence ∉ e.orders :=
  fun hm => Nat.lt_irrefl _ (h.fresh _ hm)

/-- **What `limit_sell` / `limit_buy` return.** Either 0, the order filled on entry, with the
counter where it was; or the counter's uid, with the counter advanced by one. -/
theorem Inv.limitSide_result (h : Inv e) (side : Side) (account : AccountId) (quantity price : Nat) :
    ((LimitOrderBook.limitSide side e account quantity price).1 = 0 ∧
        (LimitOrderBook.limitSide side e account quantity price).2.sequence = e.sequence) ∨
      ((LimitOrderBook.limitSide side e account quantity price).1 = e.sequence ∧
        (LimitOrderBook.limitSide side e account quantity price).2.sequence = e.sequence + 1) := by
  rcases limitSide_cases side account quantity price h.sequence_not_mem with ⟨-, heq⟩ |
    ⟨-, -, heq⟩ | ⟨-, -, heq⟩ <;> rw [heq]
  · exact .inr ⟨rfl, rfl⟩
  · exact .inl ⟨rfl, ((h.book.emplace h.sequence_not_mem _).market side.not _).2.2.1⟩
  · exact .inr ⟨rfl, rfl⟩

/-- The matching loop of a `limit` keeps the incoming order in the map: its uid is the one no
level queues, and the loop erases only the makers it fills. -/
theorem Inv.mem_market_taker (h : Inv e) (side : Side) (account : AccountId) (quantity price : Nat) :
    let o : Order := ⟨e.sequence, side, quantity, price, none, account⟩
    e.sequence ∈ (LimitTree.market side.not { e with orders := e.orders.insert e.sequence o } o).1.orders := by
  intro o
  have hk := ((h.book.emplace h.sequence_not_mem o).market side.not o).1.keys
  exact AList.mem_keys.mpr (hk.mem_iff.mpr (by simp))

/-- Every key of the map after `limit_sell` / `limit_buy` was a key before, or is the counter's
uid. -/
theorem Inv.mem_limitSide (h : Inv e) (side : Side) (account : AccountId) (quantity price : Nat)
    {u : Nat} (hu : u ∈ (LimitOrderBook.limitSide side e account quantity price).2.orders) :
    u ∈ e.orders ∨ u = e.sequence := by
  set o : Order := ⟨e.sequence, side, quantity, price, none, account⟩
  set r := LimitTree.market side.not { e with orders := e.orders.insert e.sequence o } o
  obtain ⟨-, hK, -, ho, -⟩ := (h.book.emplace h.sequence_not_mem o).market side.not o
  have hr : ∀ v ∈ r.1.orders, v ∈ e.orders ∨ v = e.sequence := fun v hv => by
    have := AList.mem_keys.mpr (hK (AList.mem_keys.mp hv))
    rw [AList.mem_insert] at this
    exact this.symm
  have huid : r.2.uid = e.sequence := by rw [ho]
  rcases limitSide_cases side account quantity price h.sequence_not_mem with ⟨-, heq⟩ |
    ⟨-, -, heq⟩ | ⟨-, -, heq⟩ <;> rw [heq] at hu <;>
    simp only [limit_orders, AList.mem_insert, AList.mem_erase] at hu
  · rcases hu with hu | hu | hu
    · exact .inr hu
    · exact .inr hu
    · exact .inl hu
  · rcases hu.2 with hu | hu
    · exact .inr hu
    · exact hr u hu
  · rcases hu with hu | hu | hu
    · exact .inr (hu.trans huid)
    · exact .inr hu
    · exact hr u hu

/-- `cancel` keys no new uid. -/
theorem mem_of_cancel {uid : Nat} (hr : LimitOrderBook.cancel e uid = .ok e') {u : Nat}
    (hu : u ∈ e'.orders) : u ∈ e.orders := by
  unfold LimitOrderBook.cancel at hr
  split at hr <;> cases hr
  exact (AList.mem_erase.mp hu).2

/-- `reduce` keys no new uid. -/
theorem mem_of_reduce {uid quantity : Nat} (hr : LimitOrderBook.reduce e uid quantity = .ok e')
    {u : Nat} (hu : u ∈ e'.orders) : u ∈ e.orders := by
  unfold LimitOrderBook.reduce at hr
  split at hr
  · cases hr
  next o hm =>
  have huid : uid ∈ e.orders := mem_of_lookup hm
  split at hr
  · cases hr
  split at hr
  · cases hr
  dsimp only at hr
  split at hr <;> cases hr <;>
    simp only [LimitTree.cancel, AList.mem_erase, AList.mem_insert] at hu
  · exact hu.2.elim (fun he => he ▸ huid) id
  · exact hu.elim (fun he => he ▸ huid) id

/-- **Every key of the map after a call was a key before, or is the counter's uid.** -/
theorem Inv.mem_apply (h : Inv e) (r : Request) (hr : r.apply e = .ok e') {u : Nat}
    (hu : u ∈ e'.orders) : u ∈ e.orders ∨ u = e.sequence := by
  cases r with
  | limit account side quantity price =>
    cases hr
    rw [limit_eq_limitSide] at hu
    exact h.mem_limitSide side account quantity price hu
  | market account side quantity =>
    cases hr
    rw [market_eq_marketSide] at hu
    exact .inl (AList.mem_keys.mpr ((h.book.market side.not _).2.1 (AList.mem_keys.mp hu)))
  | cancel uid => exact .inl (mem_of_cancel hr hu)
  | reduce uid quantity => exact .inl (mem_of_reduce hr hu)
  | clear =>
    cases hr
    exact absurd hu (AList.not_mem_empty u)

/-- `cancel` leaves the counter where it was. -/
theorem sequence_of_cancel {uid : Nat} (hr : LimitOrderBook.cancel e uid = .ok e') :
    e'.sequence = e.sequence := by
  unfold LimitOrderBook.cancel at hr
  split at hr <;> cases hr
  rfl

/-- `reduce` leaves the counter where it was. -/
theorem sequence_of_reduce {uid quantity : Nat} (hr : LimitOrderBook.reduce e uid quantity = .ok e') :
    e'.sequence = e.sequence := by
  unfold LimitOrderBook.reduce at hr
  split at hr
  · cases hr
  split at hr
  · cases hr
  split at hr
  · cases hr
  dsimp only at hr
  split at hr <;> cases hr <;> rfl

/-- **One call keeps the issued uids consecutive**: if `limit` issued `1, …, sequence - 1` so far,
it has issued `1, …, sequence - 1` of the book after the call. -/
theorem Inv.issue (h : Inv e) (r : Request) (hr : r.apply e = .ok e') {us : List Nat}
    (hus : us = List.range' 1 (e.sequence - 1)) : r.issue e us = List.range' 1 (e'.sequence - 1) := by
  cases r with
  | limit account side quantity price =>
    cases hr
    simp only [Request.issue, limit_eq_limitSide]
    rcases h.limitSide_result side account quantity price with ⟨h0, hs⟩ | ⟨h0, hs⟩
    · rw [if_pos h0, hs, hus]
    · obtain ⟨n, hn⟩ : ∃ n, e.sequence = n + 1 := ⟨e.sequence - 1, by have := h.sequence_pos; omega⟩
      rw [if_neg (by omega), hs, h0, hus, hn, Nat.add_sub_cancel, Nat.add_sub_cancel,
        List.range'_concat, Nat.one_mul, Nat.add_comm]
  | market account side quantity =>
    cases hr
    show us = _
    rw [hus, market_eq_marketSide, LimitOrderBook.marketSide, (h.book.market side.not _).2.2.1]
  | cancel uid => show us = _; rw [hus, sequence_of_cancel hr]
  | reduce uid quantity => show us = _; rw [hus, sequence_of_reduce hr]
  | clear => cases hr; rfl

end Calls

/-! ## §3 Every reachable book -/

/-- What every book of a run from the empty book keeps: the invariant, positive keys, and the
uids issued so far are `1, …, sequence - 1`. -/
theorem Issued.keys {accounts : AccountId → Account} {e : Engine} {us : List Nat}
    (h : Issued (Engine.init accounts) e us) :
    Inv e ∧ (∀ k ∈ e.orders, 1 ≤ k) ∧ us = List.range' 1 (e.sequence - 1) := by
  induction h with
  | start => exact ⟨Inv.init accounts, fun k hk => absurd hk (AList.not_mem_empty k), rfl⟩
  | step r _ hr ih =>
    obtain ⟨hi, hpos, hus⟩ := ih
    refine ⟨hi.apply r hr, fun k hk => ?_, hi.issue r hr hus⟩
    rcases hi.mem_apply r hr hk with hk | rfl
    · exact hpos k hk
    · exact hi.sequence_pos

/-- **Uids are fresh and consecutive.** On every book reached from the empty one by `limit`,
`market`, `cancel`, `reduce` and `clear` calls that return normally:
- every key `k` of the map has `1 ≤ k < sequence` and keys the order whose uid is `k`;
- the non-zero uids `limit` returned since the start or the last `clear` are `1, …, sequence - 1`,
  in call order;
- the next `limit` emplaces its order under a uid new to the map, its matching loop keeps that
  order in the map, and it returns 0 leaving the counter, or the counter's uid advancing it by
  one. -/
theorem uids_fresh_consecutive (accounts : AccountId → Account) {e : Engine} {us : List Nat}
    (h : Issued (Engine.init accounts) e us) :
    (∀ k ∈ e.orders, 1 ≤ k ∧ k < e.sequence ∧ ∀ o, e.orders.lookup k = some o → o.uid = k) ∧
    us = List.range' 1 (e.sequence - 1) ∧
    ∀ (account : AccountId) (side : Side) (quantity price : Nat),
      let o : Order := ⟨e.sequence, side, quantity, price, none, account⟩
      e.sequence ∉ e.orders ∧
      e.sequence ∈ (LimitTree.market side.not { e with orders := e.orders.insert e.sequence o } o).1.orders ∧
      (((LimitOrderBook.limit e account side quantity price).1 = 0 ∧
          (LimitOrderBook.limit e account side quantity price).2.sequence = e.sequence) ∨
        ((LimitOrderBook.limit e account side quantity price).1 = e.sequence ∧
          (LimitOrderBook.limit e account side quantity price).2.sequence = e.sequence + 1)) := by
  obtain ⟨hi, hpos, hus⟩ := h.keys
  refine ⟨fun k hk => ⟨hpos k hk, hi.fresh k hk, fun o ho => (hi.book.queued_of_lookup ho).2⟩, hus,
    fun account side quantity price => ⟨hi.sequence_not_mem,
      hi.mem_market_taker side account quantity price, ?_⟩⟩
  rw [limit_eq_limitSide]
  exact hi.limitSide_result side account quantity price

theorem uids_after_two_limits :
    let e := (LimitOrderBook.limit (LimitOrderBook.limit (Engine.init fun _ => Account.new) "A" .sell 10 100).2 "B" .sell 5 101).2
    (∀ k ∈ e.orders, 1 ≤ k ∧ k < e.sequence ∧ ∀ o, e.orders.lookup k = some o → o.uid = k) ∧
    [1, 2] = List.range' 1 (e.sequence - 1) ∧
    ∀ (account : AccountId) (side : Side) (quantity price : Nat),
      let o : Order := ⟨e.sequence, side, quantity, price, none, account⟩
      e.sequence ∉ e.orders ∧
      e.sequence ∈ (LimitTree.market side.not { e with orders := e.orders.insert e.sequence o } o).1.orders ∧
      (((LimitOrderBook.limit e account side quantity price).1 = 0 ∧
          (LimitOrderBook.limit e account side quantity price).2.sequence = e.sequence) ∨
        ((LimitOrderBook.limit e account side quantity price).1 = e.sequence ∧
          (LimitOrderBook.limit e account side quantity price).2.sequence = e.sequence + 1)) :=
  uids_fresh_consecutive _ (.step (.limit "B" .sell 5 101) (.step (.limit "A" .sell 10 100) .start rfl) rfl)

end CboeEmulator.OrderEntry.LOB

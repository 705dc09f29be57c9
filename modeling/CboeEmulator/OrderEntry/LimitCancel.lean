import CboeEmulator.OrderEntry.Accounts
import CboeEmulator.OrderEntry.Uids

/-!
# Order-Entry Book: Limit Then Cancel

An order that crosses nothing rests untouched. `limit_sell` / `limit_buy` put it at the tail of
its level, or in a new level, record it on its account, and advance the counter. Canceling it at
once splices it out again, erases the level if it was alone there, and drops it from the
account. On a consistent book whose account does not already hold the counter's uid, the two
calls undo each other. The trees (levels, FIFOs, bests, counts and volumes), the map and every
account come back as they were. Only the counter is one ahead, and the feed has heard the
`AddOrder` and the `DeleteOrder`.

An account can hold the counter's uid only after `clear`, which resets the counter and leaves
the accounts' sets alone. The cancel then takes that uid out of a set that held it before the
`limit`.

## Main results

- `TreeOk.remove_insert`: splicing a new order out of the level it joined restores the side;
- `Inv.limit_cancel`: limit then cancel restores the book, but for the counter and the feed;
- `limit_cancel_restores`: the same on every book reached from the empty one without `clear`;
- `limit_cancel_after_clear`: after `clear` the pair takes a uid out of an account's set.
-/

namespace CboeEmulator.OrderEntry.LOB

open LimitTree LimitOrderBook

/-! ## §1 Levels -/

/-- Erasing a key no level has changes nothing. -/
theorem eraseLimit_of_forall_ne {k : Nat} {ls : List Limit} (h : ∀ x ∈ ls, x.key ≠ k) :
    eraseLimit k ls = ls :=
  List.filter_eq_self.mpr fun x hx => by simpa using h x hx

/-- Erasing the key of a level just inserted, when no other level has it, restores the list. -/
theorem eraseLimit_insertLimit (side : Side) (l : Limit) :
    ∀ ls : List Limit, (∀ x ∈ ls, x.key ≠ l.key) → eraseLimit l.key (insertLimit side l ls) = ls
  | [], _ => by simp [eraseLimit, insertLimit]
  | x :: xs, h => by
    have hx : x.key ≠ l.key := h x (List.mem_cons_self _ _)
    simp only [insertLimit]
    split
    · simp only [eraseLimit, List.filter_cons, bne_self_eq_false, Bool.false_eq_true, if_false,
        bne_iff_ne, ne_eq, hx, not_false_eq_true, if_true]
      exact congrArg (x :: ·) (eraseLimit_of_forall_ne fun y hy => h y (by simp [hy]))
    · simp only [eraseLimit, List.filter_cons, bne_iff_ne, ne_eq, hx, not_false_eq_true, if_true]
      exact congrArg (x :: ·) (eraseLimit_insertLimit side l xs fun y hy => h y (by simp [hy]))

/-- Rewriting a level of a sorted list by a key-keeping `f`, then putting the old level back,
restores the list. -/
theorem updateLimit_restore {side : Side} {ls : List Limit} (hs : Sorted side ls) {l : Limit}
    (hl : l ∈ ls) (f : Limit → Limit) (hf : (f l).key = l.key) :
    updateLimit l.key (fun _ => l) (updateLimit l.key f ls) = ls := by
  obtain ⟨pre, post, rfl, hne⟩ := hs.split hl
  rw [updateLimit_split f rfl hne, updateLimit_split _ hf hne]

/-- A level a new key was inserted under, the best moves back to where it was. -/
theorem setBest_restore (side : Side) (best : Option Nat) (p : Nat) :
    (if setBest side best p = some p then best else setBest side best p) = best := by
  cases best <;> simp only [setBest] <;> split_ifs <;> simp_all

/-! ## §2 Sides -/

/-- **Resting an order, then splicing it out, restores a side**, when the side is consistent and
does not queue the order's uid: whether the order joined a level or made a new one, the levels,
their FIFOs, the best, the count and the volume come back as they were. -/
theorem TreeOk.remove_insert {side : Side} {m : UIDOrderMap} {t : LimitTree} (h : TreeOk side m t)
    {o : Order} (hu : o.uid ∉ t.queued) :
    (t.insert side o).remove { o with limit := some o.price } = t := by
  unfold LimitTree.insert
  cases hf : t.find o.price with
  | some l =>
    obtain ⟨hl, hk⟩ := find_some hf
    have hkeep : ∀ x : Limit, x.key = o.price → (x.append o.uid o.quantity).key = o.price :=
      fun _ => id
    have hfind : LimitTree.find ⟨updateLimit o.price (·.append o.uid o.quantity) t.limits, t.best,
        t.count + 1, t.volume + o.quantity⟩ o.price = some (l.append o.uid o.quantity) :=
      (find_eq_some (h.sorted.updateLimit hkeep)).mpr
        ⟨List.mem_map.mpr ⟨l, hl, by simp [hk]⟩, hk⟩
    have hsplice : (l.append o.uid o.quantity).splice o.uid o.quantity = l := by
      have hul : o.uid ∉ l.orders := fun h' => hu (mem_queued.mpr ⟨l, hl, h'⟩)
      simp [Limit.append, Limit.splice, erase_append_single hul]
    have hcount : l.count ≠ 0 := by
      rw [(h.levels l hl).count]; exact List.length_pos.mpr (h.levels l hl).nonempty |>.ne'
    have hres := updateLimit_restore h.sorted hl (·.append o.uid o.quantity) rfl
    rw [hk] at hres
    simp only [LimitTree.remove, hfind, hsplice, if_neg hcount, hres]
    simp
  | none =>
    have hne : ∀ x ∈ t.limits, x.key ≠ (Limit.ofOrder o).key := find_eq_none.mp hf
    have hfind : LimitTree.find ⟨insertLimit side (Limit.ofOrder o) t.limits, setBest side t.best o.price,
        t.count + 1, t.volume + o.quantity⟩ o.price = some (Limit.ofOrder o) :=
      (find_eq_some (h.sorted.insertLimit hne)).mpr
        ⟨(insertLimit_perm side _ _).mem_iff.mpr (List.mem_cons_self _ _), rfl⟩
    simp only [LimitTree.remove, hfind]
    rw [if_pos (by simp [Limit.splice, Limit.ofOrder])]
    have hls := eraseLimit_insertLimit side (Limit.ofOrder o) t.limits hne
    simp only [Limit.ofOrder] at hls ⊢
    rw [hls, ← h.best, setBest_restore]
    simp

/-! ## §3 The book -/

section Book

variable {e : Engine}

/-- Erasing a key just inserted under, when the map lacked it, restores the map. -/
theorem erase_insert_of_not_mem {m : UIDOrderMap} {u : Nat} (hu : u ∉ m) (o : Order) :
    (m.insert u o).erase u = m :=
  AList.ext (by
    rw [show ((m.insert u o).erase u).entries = (m.insert u o).entries.kerase u from rfl,
      AList.insert_entries]
    exact (List.kerase_cons_eq (s := ⟨u, o⟩) rfl).trans (List.kerase_of_not_mem_keys hu))

/-- An account records an order and forgets it again, when it did not hold the uid before. -/
theorem Account.cancel_limit {a : Account} {o : Order} (ha : o.uid ∉ a.orders) (k : Option Nat) :
    (a.limit o).cancel { o with limit := k } = a := by
  simp [Account.limit, Account.cancel, Finset.erase_insert ha]

/-- **Limit then cancel.** On a consistent book, an order that crosses no opposite level rests
under the counter's uid. Canceling that uid at once gives back the book, with the counter one
ahead and the feed extended by the `AddOrder` and the `DeleteOrder`, provided the account did not
hold the uid already. -/
theorem Inv.limit_cancel (h : Inv e) {account : AccountId} {side : Side} {quantity price : Nat}
    (hacc : e.sequence ∉ (e.accounts account).orders)
    (hnc : ∀ key, (e.trees side.not).best = some key → ¬ crosses side key price) :
    (LimitOrderBook.limit e account side quantity price).1 = e.sequence ∧
    LimitOrderBook.cancel (LimitOrderBook.limit e account side quantity price).2 e.sequence =
      .ok { e with sequence := e.sequence + 1,
                   feed := e.feed ++ [.addOrder e.sequence price quantity side.toWire,
                     .deleteOrder e.sequence] } := by
  rw [limit_eq_limitSide]
  rcases limitSide_cases side account quantity price h.sequence_not_mem with ⟨-, heq⟩ |
    ⟨⟨key, hb, hc⟩, -⟩ | ⟨⟨key, hb, hc⟩, -⟩
  · rw [heq]
    refine ⟨rfl, ?_⟩
    set o : Order := ⟨e.sequence, side, quantity, price, none, account⟩
    have hq : o.uid ∉ (e.trees side).queued := fun hq =>
      h.sequence_not_mem (h.book.mem_of_queued hq)
    have hacc' : o.uid ∉ (e.accounts account).orders := hacc
    simp only [LimitOrderBook.cancel, limit_orders, AList.lookup_insert, LimitTree.cancel,
      LimitTree.limit, Function.update_same, Function.update_idem, AList.insert_insert,
      erase_insert_of_not_mem h.sequence_not_mem, Account.cancel_limit hacc',
      (h.book.trees side).remove_insert hq, Function.update_eq_self, List.append_assoc,
      List.singleton_append]
  · exact absurd hc (hnc key hb)
  · exact absurd hc (hnc key hb)

end Book

/-! ## §4 Reachable books -/

/-- **Limit then cancel is the identity on every book reached without `clear`.** From accounts
with no orders, by `limit`, `market`, `cancel` and `reduce` calls, every book has exact account
sets. So a `limit` that crosses no opposite level rests under the counter's uid, and canceling
it at once restores the trees, the map and every account, with the counter one ahead and the feed
extended by the `AddOrder` and the `DeleteOrder`. -/
theorem limit_cancel_restores {accounts : AccountId → Account} (h₀ : ∀ a, (accounts a).orders = ∅)
    {e : Engine} (h : Reachable (fun r => r ≠ .clear) (Engine.init accounts) e)
    (account : AccountId) (side : Side) (quantity price : Nat)
    (hnc : ∀ key, (e.trees side.not).best = some key → ¬ crosses side key price) :
    (LimitOrderBook.limit e account side quantity price).1 = e.sequence ∧
    LimitOrderBook.cancel (LimitOrderBook.limit e account side quantity price).2 e.sequence =
      .ok { e with sequence := e.sequence + 1,
                   feed := e.feed ++ [.addOrder e.sequence price quantity side.toWire,
                     .deleteOrder e.sequence] } := by
  obtain ⟨hi, ha⟩ := h.accountsOk (fun _ => id) ⟨Inv.init accounts, AccountsOk.init h₀⟩
  refine hi.limit_cancel (fun hu => hi.sequence_not_mem ?_) hnc
  obtain ⟨-, o, ho, -⟩ := (ha account e.sequence).mp hu
  exact mem_of_lookup ho

theorem limit_cancel_restores_beside_sell :
    (LimitOrderBook.limit (LimitOrderBook.limit (Engine.init fun _ => Account.new) "A" .sell 10 100).2
      "B" .buy 5 99).1 = 2 ∧
    LimitOrderBook.cancel (LimitOrderBook.limit (LimitOrderBook.limit (Engine.init fun _ => Account.new)
      "A" .sell 10 100).2 "B" .buy 5 99).2 2 =
      .ok { (LimitOrderBook.limit (Engine.init fun _ => Account.new) "A" .sell 10 100).2 with
            sequence := 3,
            feed := (LimitOrderBook.limit (Engine.init fun _ => Account.new) "A" .sell 10 100).2.feed ++
              [.addOrder 2 99 5 Side.buy.toWire, .deleteOrder 2] } :=
  limit_cancel_restores (fun _ => rfl) (.step (.limit "A" .sell 10 100) (by decide) .start rfl)
    "B" .buy 5 99 fun key hk => by
      injection (show some 100 = some key from hk) with hk
      subst hk
      decide

/-- **After `clear`, limit then cancel empties a set that was not empty.** `A` rests an order,
which takes uid 1, and the book is cleared: the counter is back at 1 while `A` still holds uid 1.
`A` then rests an order crossing nothing, which takes uid 1 again, and cancels it at once:
`A`'s set, which held uid 1 before the `limit`, is empty after the cancel. -/
theorem limit_cancel_after_clear :
    Reachable (fun _ => True) (Engine.init fun _ => Account.new)
      (LimitOrderBook.clear (LimitOrderBook.limit (Engine.init fun _ => Account.new) "A" .sell 10 100).2) ∧
    ((LimitOrderBook.clear (LimitOrderBook.limit (Engine.init fun _ => Account.new) "A" .sell 10
      100).2).accounts "A").orders = {1} ∧
    (LimitOrderBook.limit (LimitOrderBook.clear (LimitOrderBook.limit (Engine.init fun _ => Account.new)
      "A" .sell 10 100).2) "A" .sell 10 100).1 = 1 ∧
    ∃ e', LimitOrderBook.cancel (LimitOrderBook.limit (LimitOrderBook.clear (LimitOrderBook.limit
      (Engine.init fun _ => Account.new) "A" .sell 10 100).2) "A" .sell 10 100).2 1 = .ok e' ∧
      (e'.accounts "A").orders = ∅ :=
  ⟨.step .clear trivial (.step (.limit "A" .sell 10 100) trivial .start rfl) rfl, by decide, rfl,
    _, rfl, by decide⟩

end CboeEmulator.OrderEntry.LOB

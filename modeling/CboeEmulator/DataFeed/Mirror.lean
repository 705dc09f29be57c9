import CboeEmulator.OrderEntry.Authorization
import CboeEmulator.DataFeed.Receiver

/-!
# Market-Data Feed: the Mirror Refines the Book

A `Receiver` that hears every packet of the order-entry book's feed, once and in order, rebuilds
the book. After the packets of any run of `limit`, `market` and `cancel` calls from the empty
book, its mirror has the server book's two trees, so the same levels, FIFOs, bests, counts and
volumes, and under every uid the server's order without its account. Every packet on the way is
one the mirror takes as meant: no `AddOrder` crosses the mirror or reuses a uid it holds, and
every `Trade` and `DeleteOrder` is for an order the mirror holds, no larger than it.

The proof is a simulation. One round of the matching loop sends one `Trade`, and reducing the
maker in the mirror (dropping it when nothing is left) is what the round did to the book; the
taker the server keeps in its map while it matches is the one uid the mirror lacks, until the
`AddOrder` for what is left of it. That `AddOrder` crosses nothing, since the loop stopped.

## Main definitions

- `Order.toFeed`: the data feed's record of an order;
- `Mirrors extra e b`: the mirror `b` holds the server's resting orders, the uids of `extra`
  apart;
- `Follows`: from a mirror of `e`, the packets on the way to `e'` take it to a mirror of `e'`.

## Main results

- `BookOk.follows_marketStep`: one round of the matching loop is one `Trade` the mirror follows;
- `Inv.follows_limitSide`, `BookOk.follows_market`, `Inv.follows_cancel`: each call of the book;
- `mirror_refines_book`: every book reachable by those calls is mirrored by the receiver that
  replays its feed;
- `same_feed_same_book`: two such books with the same feed hold the same orders, accounts apart;
- `Server.server_feed_mirrored`: the same on every reachable server, whose events change the
  book only by those calls (`Server.step_reported`).
-/

namespace CboeEmulator.OrderEntry.LOB

open LimitTree LimitOrderBook
open DataFeed (Receiver Replays Admissible sideToLOBSide)
open DataFeed.Messages (Message)

/-! ## §1 The data feed's record of an order -/

/-- The data feed's record of an order: the order without its account. -/
def Order.toFeed (o : Order) : DataFeed.LOB.Order := ⟨o.uid, o.side, o.quantity, o.price, o.limit⟩

@[simp] theorem Order.toFeed_uid (o : Order) : o.toFeed.uid = o.uid := rfl
@[simp] theorem Order.toFeed_side (o : Order) : o.toFeed.side = o.side := rfl
@[simp] theorem Order.toFeed_quantity (o : Order) : o.toFeed.quantity = o.quantity := rfl
@[simp] theorem Order.toFeed_price (o : Order) : o.toFeed.price = o.price := rfl
@[simp] theorem Order.toFeed_limit (o : Order) : o.toFeed.limit = o.limit := rfl

namespace LimitTree

/-- The feed's tree takes a record in as the book's tree takes the order in. -/
theorem insert_toFeed (side : Side) (t : LimitTree) (o : Order) :
    DataFeed.LOB.LimitTree.insert side t o.toFeed = t.insert side o := rfl

/-- The feed's tree splices a record out as the book's tree splices the order out. -/
theorem remove_toFeed (t : LimitTree) (o : Order) :
    DataFeed.LOB.LimitTree.remove t o.toFeed = t.remove o := rfl

/-- Taking volume off the level at `key` leaves it where `find` finds it. -/
theorem find_reduceVolume (t : LimitTree) (key q : Nat) :
    (t.reduceVolume key q).find key =
      (t.find key).map fun l => { l with volume := l.volume - q } := by
  simp only [find, reduceVolume, updateLimit, List.find?_map]
  have hp : ((fun l : Limit => decide (l.key = key)) ∘ fun l =>
      if l.key = key then { l with volume := l.volume - q } else l) =
      fun l => decide (l.key = key) := by
    funext l; by_cases h : l.key = key <;> simp [h]
  rw [hp]
  cases hf : t.limits.find? (fun l => decide (l.key = key)) with
  | none => rfl
  | some l =>
    have hk : l.key = key := by simpa using List.find?_some hf
    simp [hk]

end LimitTree

/-- Erasing the level at `k` after rewriting it by a key-keeping `f` is erasing it. -/
theorem eraseLimit_updateLimit {k : Nat} {f : Limit → Limit} (hf : ∀ l, (f l).key = l.key)
    (ls : List Limit) : eraseLimit k (updateLimit k f ls) = eraseLimit k ls := by
  induction ls with
  | nil => rfl
  | cons x xs ih =>
    simp only [eraseLimit, updateLimit, List.map_cons, List.filter_cons] at ih ⊢
    by_cases h : x.key = k <;> simp [h, hf, ih]

/-- Rewriting the level at `k` twice, the first time by a key-keeping `f`, is rewriting it once. -/
theorem updateLimit_updateLimit {k : Nat} {f g : Limit → Limit} (hf : ∀ l, (f l).key = l.key)
    (ls : List Limit) : updateLimit k g (updateLimit k f ls) = updateLimit k (g ∘ f) ls := by
  simp only [updateLimit, List.map_map]
  exact List.map_congr_left fun l _ => by by_cases h : l.key = k <;> simp [h, hf]

namespace LimitTree

/-- **Reducing an order to nothing, then splicing it out, is splicing it out**: the mirror's
`reduce` of a whole maker leaves the tree the book's fill left. -/
theorem remove_reduceVolume {t : LimitTree} {o : Order} {key : Nat} {l : Limit}
    (hk : o.limit = some key) (hl : t.find key = some l) (s : Side) :
    DataFeed.LOB.LimitTree.remove (t.reduceVolume key o.quantity) ⟨o.uid, s, 0, o.price, o.limit⟩ =
      t.remove o := by
  have hl' := find_reduceVolume t key o.quantity
  rw [hl, Option.map_some'] at hl'
  have hkeep : ∀ l : Limit, ({ l with volume := l.volume - o.quantity } : Limit).key = l.key :=
    fun _ => rfl
  simp only [DataFeed.LOB.LimitTree.remove, LimitTree.remove, hk, hl, hl', Limit.splice,
    Nat.sub_zero]
  split
  · simp only [reduceVolume, eraseLimit_updateLimit hkeep]
  · simp only [reduceVolume, updateLimit_updateLimit hkeep, Function.comp_def]

end LimitTree

/-! ## §2 The mirror relation -/

/-- The mirror book `b` holds the server book `e`'s resting orders: the same trees and, under
every uid but those of `extra`, the server's record without its account. Under the uids of
`extra` (the taker the server keeps in its map while it matches) it holds nothing. -/
structure Mirrors (extra : List Nat) (e : Engine) (b : DataFeed.LOB.LimitOrderBook) : Prop where
  /-- the same `sells` and `buys` -/
  trees : b.trees = e.trees
  /-- the same records, accounts apart -/
  orders : ∀ u, u ∉ extra → b.orders.lookup u = (e.orders.lookup u).map Order.toFeed
  /-- nothing under the uids of `extra` -/
  extra : ∀ u ∈ extra, b.orders.lookup u = none

namespace Mirrors

variable {extra : List Nat} {e : Engine} {b : DataFeed.LOB.LimitOrderBook}

/-- The empty mirror mirrors the empty book. -/
theorem init (accounts : AccountId → Account) :
    Mirrors [] (Engine.init accounts) DataFeed.LOB.LimitOrderBook.init :=
  ⟨rfl, fun _ _ => rfl, fun _ h => absurd h (List.not_mem_nil _)⟩

/-- The mirror's record of a server order. -/
theorem lookup (h : Mirrors extra e b) {u : Nat} (hu : u ∉ extra) {o : Order}
    (ho : e.orders.lookup u = some o) : b.orders.lookup u = some o.toFeed := by
  rw [h.orders u hu, ho]; rfl

/-- The mirror holds every server order off `extra`. -/
theorem mem (h : Mirrors extra e b) {u : Nat} (hu : u ∉ extra) {o : Order}
    (ho : e.orders.lookup u = some o) : u ∈ b.orders :=
  mem_of_lookup (h.lookup hu ho)

/-- A uid of `extra` is not in the mirror. -/
theorem not_mem_extra (h : Mirrors extra e b) {u : Nat} (hu : u ∈ extra) : u ∉ b.orders :=
  AList.lookup_eq_none.mp (h.extra u hu)

end Mirrors

/-! ## §3 The simulation step -/

/-- From any mirror of `e` (the uids of `extra` apart), the packets the server adds to the feed on
its way to `e'` are admissible in turn and take the mirror to one of `e'` (the uids of `extra'`
apart). -/
def Follows (extra extra' : List Nat) (e e' : Engine) : Prop :=
  ∀ r : Receiver, Mirrors extra e r.book →
    ∃ ms r', e'.feed = e.feed ++ ms ∧ Replays ms r r' ∧ Mirrors extra' e' r'.book

namespace Follows

variable {x y z : List Nat} {e₁ e₂ e₃ : Engine}

theorem trans (h₁ : Follows x y e₁ e₂) (h₂ : Follows y z e₂ e₃) : Follows x z e₁ e₃ := by
  intro r hm
  obtain ⟨ms₁, r₁, hf₁, hr₁, hm₁⟩ := h₁ r hm
  obtain ⟨ms₂, r₂, hf₂, hr₂, hm₂⟩ := h₂ r₁ hm₁
  exact ⟨ms₁ ++ ms₂, r₂, by rw [hf₂, hf₁, List.append_assoc], hr₁.append hr₂, hm₂⟩

/-- A step that sends nothing. -/
theorem silent (hf : e₂.feed = e₁.feed) (h : ∀ b, Mirrors x e₁ b → Mirrors y e₂ b) :
    Follows x y e₁ e₂ :=
  fun r hm => ⟨[], r, by rw [hf, List.append_nil], .nil r, h _ hm⟩

theorem refl : Follows x x e₁ e₁ := silent rfl fun _ => id

/-- A step that sends one packet. -/
theorem packet {m : Message} (hf : e₂.feed = e₁.feed ++ [m])
    (h : ∀ r : Receiver, Mirrors x e₁ r.book →
      Admissible r.book m ∧ ∃ r', r.handle m = .ok r' ∧ Mirrors y e₂ r'.book) :
    Follows x y e₁ e₂ := by
  intro r hm
  obtain ⟨ha, r', hr, hm'⟩ := h r hm
  exact ⟨[m], r', hf, .single ha hr, hm'⟩

end Follows

/-! ## §4 A round of the matching loop is one trade -/

section Round

variable {side : Side} {extra : List Nat} {e e' : Engine} {o o' : Order}

/-- **One round of the matching loop is one `Trade` the mirror follows**: the trade is for the
maker at the head of the best level, which the mirror holds, and for no more than it has;
reducing it in the mirror, and dropping it when nothing is left, is what the round did to the
book. -/
theorem BookOk.follows_marketStep (h : BookOk extra e)
    (hs : LimitTree.marketStep side e o = some (e', o')) : Follows extra extra e e' := by
  obtain ⟨key, l, uid, m, -, -, -, hl, hu, hm, hr⟩ := marketStep_eq_some hs
  obtain ⟨hlm, hlk⟩ := find_some hl
  have hul : uid ∈ l.orders := List.mem_of_mem_head? hu
  obtain ⟨rfl, hside, -, hlim⟩ := (h.trees side).resting_of_queued hm hlm hul
  have hx : m.uid ∉ extra := fun hx => h.not_queued_of_extra hx side (mem_queued.mpr ⟨l, hlm, hul⟩)
  rw [hlk] at hlim
  split at hr
  case isTrue hle =>
    -- the maker is filled: the mirror reduces it to nothing and drops it
    obtain ⟨rfl, -⟩ := Prod.ext_iff.mp hr
    refine Follows.packet rfl fun r hmr => ?_
    have hb := hmr.lookup hx hm
    rw [Receiver.handle_trade_of_mem (hmr.mem hx hm),
      DataFeed.LOB.LimitOrderBook.reduce_of_lookup hb (le_rfl : m.quantity ≤ m.toFeed.quantity) hlim]
    simp only [Order.toFeed_quantity, Nat.sub_self, ↓reduceIte]
    refine ⟨⟨m.toFeed, hb, le_rfl⟩, _, rfl, ?_⟩
    · refine ⟨?_, fun u hu => ?_, fun u hu => ?_⟩
      · simp only [Receiver.withBook_book, hmr.trees, Order.toFeed_uid, Order.toFeed_side,
          Order.toFeed_price, Order.toFeed_limit, hside, remove_reduceVolume hlim hl, fillMaker_trees]
      · by_cases he : u = m.uid
        · subst he; simp
        · simp [AList.lookup_erase_ne he, AList.lookup_insert_ne he, hmr.orders u hu]
      · have he : u ≠ m.uid := fun he => hx (he ▸ hu)
        simp [AList.lookup_erase_ne he, AList.lookup_insert_ne he, hmr.extra u hu]
  case isFalse hlt =>
    -- the taker is filled: the mirror takes its quantity off the maker
    obtain ⟨rfl, -⟩ := Prod.ext_iff.mp hr
    have hlt : o.quantity < m.quantity := Nat.lt_of_not_le hlt
    refine Follows.packet rfl fun r hmr => ?_
    have hb := hmr.lookup hx hm
    rw [Receiver.handle_trade_of_mem (hmr.mem hx hm),
      DataFeed.LOB.LimitOrderBook.reduce_of_lookup hb (Nat.le_of_lt hlt : o.quantity ≤ m.toFeed.quantity)
        hlim]
    simp only [Order.toFeed_quantity, Nat.sub_eq_zero_iff_le, Nat.not_le.mpr hlt, ↓reduceIte]
    refine ⟨⟨m.toFeed, hb, Nat.le_of_lt hlt⟩, _, rfl, ?_⟩
    · refine ⟨?_, fun u hu => ?_, fun u hu => ?_⟩
      · simp only [Receiver.withBook_book, hmr.trees, Order.toFeed_side, hside, fillTaker_trees]
      · by_cases he : u = m.uid
        · subst he; simp [Order.toFeed]
        · simp [AList.lookup_insert_ne he, hmr.orders u hu]
      · have he : u ≠ m.uid := fun he => hx (he ▸ hu)
        simp [AList.lookup_insert_ne he, hmr.extra u hu]

/-- **A whole run of the matching loop is followed**, trade by trade. -/
theorem BookOk.follows_market (h : BookOk extra e) (side : Side) (o : Order) :
    Follows extra extra e (LimitTree.market side e o).1 :=
  (marketLoop_invariant (P := fun e₁ _ => BookOk extra e₁ ∧ Follows extra extra e e₁)
    (fun _ _ _ _ hP hs => ⟨(hP.1.marketStep hs).1, hP.2.trans (hP.1.follows_marketStep hs)⟩)
    _ e o ⟨h, Follows.refl⟩).2

end Round

/-! ## §5 Each call of the book -/

section Calls

variable {e e' : Engine}

/-- A price that matches no level of the opposite tree crosses none of them. -/
theorem not_crosses_of_not_canMatch {side : Side} {key p : Nat}
    (h : ¬ canMatch side.not key p) : ¬ crosses side key p := by
  cases side <;> simp only [canMatch, crosses, better, Side.not] at h ⊢ <;> omega

/-- **Resting an order is one `AddOrder` the mirror follows**, for an order whose uid is the one
the mirror lacks and whose price crosses no opposite level. -/
theorem follows_limit {side : Side} (o : Order) {u : Nat} (hu : o.uid = u) (hs : o.side = side)
    (hl : o.limit = none) (hc : ∀ key, (e.trees side.not).best = some key → ¬ crosses side key o.price)
    (n : Nat) : Follows [u] [] e { LimitTree.limit side e o with sequence := n } := by
  subst hu
  refine Follows.packet rfl fun r hm => ?_
  have hnm : o.uid ∉ r.book.orders := hm.not_mem_extra (List.mem_singleton_self _)
  have hc' : ∀ key, (r.book.trees side.not).best = some key → ¬ crosses side key o.price := by
    rw [hm.trees]; exact hc
  have hfresh : (⟨o.uid, side, o.quantity, o.price, none⟩ : DataFeed.LOB.Order) = o.toFeed := by
    simp [Order.toFeed, hs, hl]
  refine ⟨⟨hnm, by simpa using hc'⟩, _, rfl, ?_⟩
  simp only [Receiver.withBook_book, DataFeed.sideToLOBSide_toWire,
    DataFeed.LOB.LimitOrderBook.limit_eq_limitSide,
    DataFeed.LOB.LimitOrderBook.limitSide_of_not_crosses hnm hc', hfresh]
  refine ⟨?_, fun v hv => ?_, fun v hv => absurd hv (List.not_mem_nil v)⟩
  · simp [DataFeed.LOB.LimitTree.limit, hm.trees, insert_toFeed]
  · by_cases he : v = o.uid
    · subst he; simp [DataFeed.LOB.LimitTree.limit, Order.toFeed]
    · simp [DataFeed.LOB.LimitTree.limit, AList.lookup_insert_ne he, hm.orders v (by simpa using he)]

/-- **`limit_sell` / `limit_buy` are followed**: the trades of the matching loop, then an
`AddOrder` for what rests, which crosses nothing in the mirror. -/
theorem Inv.follows_limitSide (h : Inv e) (side : Side) (account : AccountId)
    (quantity price : Nat) :
    Follows [] [] e (LimitOrderBook.limitSide side e account quantity price).2 := by
  have hfresh : e.sequence ∉ e.orders := fun hm => Nat.lt_irrefl _ (h.fresh _ hm)
  set o : Order := ⟨e.sequence, side, quantity, price, none, account⟩
  set e₁ : Engine := { e with orders := e.orders.insert e.sequence o }
  set r := LimitTree.market side.not e₁ o
  set e₂ : Engine := { r.1 with orders := r.1.orders.insert e.sequence r.2 }
  have h₁ := h.book.emplace hfresh o
  -- the taker enters the server's map only
  have hf₁ : Follows [] [e.sequence] e e₁ := Follows.silent rfl fun b hb =>
    ⟨hb.trees, fun u hu => by
      rw [hb.orders u (List.not_mem_nil u),
        AList.lookup_insert_ne fun he => hu (List.mem_singleton.mpr he)],
     fun u hu => by
      rw [List.mem_singleton.mp hu, hb.orders _ (List.not_mem_nil _),
        AList.lookup_eq_none.mpr hfresh, Option.map_none']⟩
  -- what is left of the taker is written back to the server's map only
  have hf₂ : Follows [e.sequence] [e.sequence] r.1 e₂ := Follows.silent rfl fun b hb =>
    ⟨hb.trees, fun u hu => by
      rw [hb.orders u hu, AList.lookup_insert_ne fun he => hu (List.mem_singleton.mpr he)],
     hb.extra⟩
  obtain ⟨h₂, -, -, ho₂, -, hx₂⟩ := h₁.market side.not o
  rcases limitSide_cases side account quantity price hfresh with ⟨hnc, heq⟩ | ⟨-, -, heq⟩ |
    ⟨-, hq, heq⟩ <;> rw [heq]
  · -- the order rests untouched
    exact hf₁.trans (follows_limit (e := e₁) o rfl rfl rfl hnc _)
  · -- the order is filled and dropped from the server's map
    refine (hf₁.trans (h₁.follows_market side.not o)).trans (hf₂.trans (Follows.silent rfl
      fun b hb => ⟨hb.trees, fun u _ => ?_, fun u hu => absurd hu (List.not_mem_nil u)⟩))
    by_cases he : u = e.sequence
    · subst he; rw [hb.extra _ (List.mem_singleton_self _), AList.lookup_erase]; rfl
    · rw [hb.orders u (by simpa using he), AList.lookup_erase_ne he]
  · -- what is left of the order rests, crossing nothing
    have hc := ((h₂.marketStep_eq_none hx₂).resolve_left hq)
    refine (hf₁.trans (h₁.follows_market side.not o)).trans (hf₂.trans
      (follows_limit r.2 (by rw [ho₂]) (by rw [ho₂]) (by rw [ho₂]) ?_ _))
    exact fun key hb => not_crosses_of_not_canMatch (hc key hb)

/-- **`cancel` is followed**: one `DeleteOrder`, for an order the mirror holds. -/
theorem Inv.follows_cancel (h : Inv e) {uid : Nat} (hr : LimitOrderBook.cancel e uid = .ok e') :
    Follows [] [] e e' := by
  unfold LimitOrderBook.cancel at hr
  split at hr
  · cases hr
  case h_2 o hm =>
    cases hr
    obtain ⟨-, hu⟩ := h.book.queued_of_lookup hm
    subst hu
    refine Follows.packet rfl fun r hmr => ?_
    have hb := hmr.lookup (List.not_mem_nil _) hm
    rw [Receiver.handle_deleteOrder_of_mem (hmr.mem (List.not_mem_nil _) hm),
      DataFeed.LOB.LimitOrderBook.cancel_of_lookup hb]
    refine ⟨hmr.mem (List.not_mem_nil _) hm, _, rfl, ?_⟩
    · refine ⟨?_, fun u hu => ?_, fun u hu => absurd hu (List.not_mem_nil u)⟩
      · simp [hmr.trees, remove_toFeed]
      · by_cases he : u = o.uid
        · subst he; simp
        · simp [AList.lookup_erase_ne he, hmr.orders u hu]

end Calls

/-! ## §6 Every reachable book is mirrored -/

/-- **Every reported call is followed** by the mirror. -/
theorem Inv.follows_apply {e e' : Engine} (h : Inv e) {req : Request} (hreq : req.Reported)
    (ha : req.apply e = .ok e') : Follows [] [] e e' := by
  cases req with
  | limit account side quantity price =>
    cases ha; rw [limit_eq_limitSide]; exact h.follows_limitSide side account quantity price
  | market account side quantity =>
    cases ha; rw [market_eq_marketSide]; exact h.book.follows_market side.not _
  | cancel uid => exact h.follows_cancel ha
  | reduce => exact hreq.elim
  | clear => exact hreq.elim

/-- **A run of reported calls is followed**, and keeps the invariant. -/
theorem Reachable.follows {e₀ e : Engine} (h : Reachable Request.Reported e₀ e) (h₀ : Inv e₀) :
    Inv e ∧ Follows [] [] e₀ e := by
  induction h with
  | start => exact ⟨h₀, Follows.refl⟩
  | step req hreq _ ha ih => exact ⟨ih.1.apply req ha, ih.2.trans (ih.1.follows_apply hreq ha)⟩

/-- A receiver that mirrors a book with an empty feed, and then replays the feed of a book that
follows from it, mirrors that book. -/
theorem Follows.replay {e₀ e : Engine} (hf : Follows [] [] e₀ e) (hfeed : e₀.feed = [])
    (r₀ : Receiver) (hm : Mirrors [] e₀ r₀.book) :
    ∃ r : Receiver, r₀.run e.feed = .ok r ∧ Replays e.feed r₀ r ∧ Mirrors [] e r.book := by
  obtain ⟨ms, r, he, hr, hm'⟩ := hf r₀ hm
  rw [hfeed, List.nil_append] at he
  exact ⟨r, he ▸ hr.run_eq, he ▸ hr, hm'⟩

/-- The receiver that replays a reachable book's feed from the start mirrors the book. -/
theorem Reachable.replayed (accounts : AccountId → Account) {e : Engine}
    (h : Reachable Request.Reported (Engine.init accounts) e) :
    ∃ r : Receiver, Receiver.init.run e.feed = .ok r ∧ Replays e.feed Receiver.init r ∧
      Mirrors [] e r.book :=
  (h.follows (Inv.init accounts)).2.replay rfl _ (Mirrors.init accounts)

/-- **The market-data mirror refines the server book.** Every book reachable from the empty one
by `limit`, `market` and `cancel` calls is mirrored by a receiver that replays its feed from the
start: each packet is admissible where it arrives and handled without an exception, and the
mirror ends with the book's trees and, under every uid, the book's order without its account. -/
theorem mirror_refines_book (accounts : AccountId → Account) {e : Engine}
    (h : Reachable Request.Reported (Engine.init accounts) e) :
    ∃ r : Receiver, Receiver.init.run e.feed = .ok r ∧ Replays e.feed Receiver.init r ∧
      Mirrors [] e r.book :=
  h.replayed accounts

theorem mirror_after_crossing_limit :
    ∃ r : Receiver, Receiver.init.run
        (LimitOrderBook.limit (LimitOrderBook.limit (Engine.init fun _ => Account.new)
          "A" .sell 10 100).2 "B" .buy 4 100).2.feed = .ok r ∧
      Replays (LimitOrderBook.limit (LimitOrderBook.limit (Engine.init fun _ => Account.new)
          "A" .sell 10 100).2 "B" .buy 4 100).2.feed Receiver.init r ∧
      Mirrors [] (LimitOrderBook.limit (LimitOrderBook.limit (Engine.init fun _ => Account.new)
          "A" .sell 10 100).2 "B" .buy 4 100).2 r.book :=
  mirror_refines_book _ (.step (.limit "B" .buy 4 100) trivial
    (.step (.limit "A" .sell 10 100) trivial .start rfl) rfl)

/-- **The feed is a complete record of the book.** Two books reached from empty ones by
`limit`, `market` and `cancel` calls that sent the same feed have the same trees and, under every
uid, the same order up to its account. -/
theorem same_feed_same_book {accounts₁ accounts₂ : AccountId → Account} {e₁ e₂ : Engine}
    (h₁ : Reachable Request.Reported (Engine.init accounts₁) e₁)
    (h₂ : Reachable Request.Reported (Engine.init accounts₂) e₂) (hf : e₁.feed = e₂.feed) :
    e₁.trees = e₂.trees ∧
      ∀ u, (e₁.orders.lookup u).map Order.toFeed = (e₂.orders.lookup u).map Order.toFeed := by
  obtain ⟨r₁, hr₁, -, hm₁⟩ :=
    (h₁.follows (Inv.init accounts₁)).2.replay rfl Receiver.init (Mirrors.init accounts₁)
  obtain ⟨r₂, hr₂, -, hm₂⟩ :=
    (h₂.follows (Inv.init accounts₂)).2.replay rfl Receiver.init (Mirrors.init accounts₂)
  have hr : r₁ = r₂ := Except.ok.inj (hr₁.symm.trans (hf ▸ hr₂))
  subst hr
  exact ⟨hm₁.trees.symm.trans hm₂.trees, fun u =>
    (hm₁.orders u (List.not_mem_nil u)).symm.trans (hm₂.orders u (List.not_mem_nil u))⟩

theorem same_feed_same_book_of_accounts :
    (LimitOrderBook.limit (Engine.init fun _ => Account.new) "A" .sell 10 100).2.trees =
      (LimitOrderBook.limit (Engine.init fun _ => Account.new) "B" .sell 10 100).2.trees ∧
    ∀ u, ((LimitOrderBook.limit (Engine.init fun _ => Account.new) "A" .sell 10 100).2.orders.lookup
        u).map Order.toFeed =
      ((LimitOrderBook.limit (Engine.init fun _ => Account.new) "B" .sell 10 100).2.orders.lookup
        u).map Order.toFeed :=
  same_feed_same_book (.step (.limit "A" .sell 10 100) trivial .start rfl)
    (.step (.limit "B" .sell 10 100) trivial .start rfl) rfl

end CboeEmulator.OrderEntry.LOB

/-! ## §7 The feed of a running server -/

namespace CboeEmulator.OrderEntry.Server

open DataFeed (Receiver Replays)

/-- **The feed of a running server is mirrored.** On every server reachable from its start, by
any interleaving of logins, orders, cancels, replaces, purges, logouts and disconnects on any
connections, a receiver that replays the book's feed from the start takes every packet as meant
and holds the server's book: its trees, and its orders without their accounts. -/
theorem server_feed_mirrored (users : List (String × String)) {s₀ s : Server}
    (h₀ : init users = .ok s₀) (h : Reachable s₀ s) :
    ∃ r : Receiver, Receiver.init.run s.book.feed = .ok r ∧ Replays s.book.feed Receiver.init r ∧
      LOB.Mirrors [] s.book r.book := by
  have hb := h.reported
  rw [(init_spec h₀).2.2] at hb
  exact (hb.follows (LOB.Inv.init _)).2.replay rfl _ (LOB.Mirrors.init _)

theorem server_feed_mirrored_after_order :
    ∃ r : Receiver, Receiver.init.run
        (((⟨⟨Function.update (fun _ => none) "AAAA" (some ⟨"password1234", none, false⟩)⟩,
          LOB.Engine.init fun _ => LOB.Account.new, fun _ => Connection.new⟩ : Server).handleLoginRequest
            0 "AAAA" "password1234").handleOrderRequest 0 100 10 'S').book.feed = .ok r ∧
      Replays (((⟨⟨Function.update (fun _ => none) "AAAA" (some ⟨"password1234", none, false⟩)⟩,
          LOB.Engine.init fun _ => LOB.Account.new, fun _ => Connection.new⟩ : Server).handleLoginRequest
            0 "AAAA" "password1234").handleOrderRequest 0 100 10 'S').book.feed Receiver.init r ∧
      LOB.Mirrors [] (((⟨⟨Function.update (fun _ => none) "AAAA" (some ⟨"password1234", none, false⟩)⟩,
          LOB.Engine.init fun _ => LOB.Account.new, fun _ => Connection.new⟩ : Server).handleLoginRequest
            0 "AAAA" "password1234").handleOrderRequest 0 100 10 'S').book r.book :=
  server_feed_mirrored [("AAAA", "password1234")] rfl
    (.step (.frame 0 (.orderRequest 100 10 'S'))
      (.step (.frame 0 (.loginRequest "AAAA" "password1234")) .start rfl) rfl)

end CboeEmulator.OrderEntry.Server

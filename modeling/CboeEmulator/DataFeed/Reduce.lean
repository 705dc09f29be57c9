import CboeEmulator.DataFeed.Mirror

/-!
# Reduce in Both Books

`reduce(uid, q)` of `limit_order_book.hpp`, in the order-entry book and in the data feed's mirror,
whose `Receiver::handle(Trade)` calls it. Both read `orders.at(uid)` and test `q > quantity`
before they write anything, so an absent uid or too large a `q` throws, and the caller's book is
the one it had. Otherwise both take `q` off the order, its level's volume and its side's volume.
When nothing is left they cancel the order, which erases its level when it was alone there.
Every other FIFO keeps its orders in their order, and the invariant holds after. Two reductions
that leave something are one reduction by their sum.

The mirror's `reduce` is the book's: on a mirror of a consistent book it throws when the book's
does, and otherwise it leaves a mirror of the book's result (`Mirrors.reduce`). So the laws
proved for the order-entry book hold for the mirror, which keeps the book's trees.

## Main definitions

- `LimitTree.fifos`: the FIFOs of a side, best level first;
- `Reduced`: what `reduce(uid, q)` does to the side of an order resting at `key` with `r` left;
- `ReduceExact`, `FeedReduceExact`: the contract of `reduce` on either book.

## Main results

- `TreeOk.reduced`: a side's `reduce` of one of its orders;
- `Inv.reduce_exact`: the order-entry book's `reduce` on a consistent book;
- `reduce_reduce`, `DataFeed.LOB.LimitOrderBook.reduce_reduce`: two reductions that leave
  something are one;
- `Mirrors.reduce`: the mirror's `reduce` follows the book's;
- `reduce_exact_atomic`: both books.
-/

namespace CboeEmulator.OrderEntry.LOB

open LimitTree LimitOrderBook

/-! ## §1 Levels split at a key -/

/-- The FIFOs of a side, best level first. -/
def LimitTree.fifos (t : LimitTree) : List (List Nat) := t.limits.map (·.orders)

section Split

variable {k : Nat} {pre post : List Limit} {x : Limit}

/-- The level at `k` of a list split there. -/
theorem find?_split (hk : x.key = k) (hne : ∀ y ∈ pre ++ post, y.key ≠ k) :
    (pre ++ x :: post).find? (fun l => l.key = k) = some x := by
  rw [List.find?_append, List.find?_eq_none.mpr fun y hy => by simpa using hne y (by simp [hy])]
  simp [hk]

/-- No level at `k` once it is erased. -/
theorem find?_of_forall_ne {ls : List Limit} (hne : ∀ y ∈ ls, y.key ≠ k) :
    ls.find? (fun l => l.key = k) = none :=
  List.find?_eq_none.mpr fun y hy => by simpa using hne y hy

/-- A side whose levels split at `x` finds `x` at its key. -/
theorem find_of_split {t : LimitTree} (hsplit : t.limits = pre ++ x :: post)
    (hne : ∀ y ∈ pre ++ post, y.key ≠ x.key) : t.find x.key = some x := by
  rw [LimitTree.find, hsplit]; exact find?_split rfl hne

/-- Erasing `u` from every FIFO of a list split at the level `x` that holds it, and dropping the
empty FIFO, leaves the other FIFOs and what `x` keeps. -/
theorem fifos_erase_split {u : Nat} (hpre : ∀ y ∈ pre ++ post, u ∉ y.orders ∧ y.orders ≠ []) :
    ((pre ++ x :: post).map (·.orders.erase u)).filter (fun f => f ≠ []) =
      pre.map (·.orders) ++ (if x.orders.erase u = [] then [] else [x.orders.erase u]) ++
        post.map (·.orders) := by
  have hkeep : ∀ ys : List Limit, (∀ y ∈ ys, u ∉ y.orders ∧ y.orders ≠ []) →
      (ys.map (·.orders.erase u)).filter (fun f => f ≠ []) = ys.map (·.orders) := fun ys hys => by
    rw [List.map_congr_left fun y hy => List.erase_of_not_mem (hys y hy).1]
    exact List.filter_eq_self.mpr fun f hf => by
      obtain ⟨y, hy, rfl⟩ := List.mem_map.mp hf
      simpa using (hys y hy).2
  rw [List.map_append, List.map_cons, List.filter_append, List.filter_cons,
    hkeep pre fun y hy => hpre y (List.mem_append_left _ hy),
    hkeep post fun y hy => hpre y (List.mem_append_right _ hy)]
  by_cases hx : x.orders.erase u = [] <;> simp [hx]

end Split

/-! ## §2 Sides -/

/-- What `reduce(uid, q)` does to the side holding the order `uid`, which rests at `key` with `r`
shares left: `q` comes off the side's volume and off the level's. When `q = r` the order leaves
its FIFO and the side's count, and its level goes exactly when the order was alone there; every
other FIFO keeps its orders in their order. -/
structure Reduced (uid key r q : Nat) (t t' : LimitTree) : Prop where
  volume : t'.volume = t.volume - q
  volumeAt : t'.volumeAt key = t.volumeAt key - q
  count : t'.count = if q = r then t.count - 1 else t.count
  fifos : t'.fifos = if q = r then (t.fifos.map (·.erase uid)).filter (fun f => f ≠ [])
    else t.fifos
  level : t'.find key = none ↔ q = r ∧ t.countAt key = 1

section Side

variable {side : Side} {m : UIDOrderMap} {t : LimitTree}

/-- Splicing an order out of the level `l` of a side whose levels split at `l`: the level goes
when the order was alone in it, and otherwise loses the order. -/
theorem remove_split {o : Order} {pre post : List Limit} {l : Limit}
    (hsplit : t.limits = pre ++ l :: post) (hne : ∀ y ∈ pre ++ post, y.key ≠ l.key)
    (hk : o.limit = some l.key) :
    t.remove o = if l.count - 1 = 0 then
        ⟨pre ++ post, if t.best = some l.key then (pre ++ post).head?.map (·.key) else t.best,
          t.count - 1, t.volume - o.quantity⟩
      else ⟨pre ++ l.splice o.uid o.quantity :: post, t.best, t.count - 1, t.volume - o.quantity⟩ := by
  simp only [LimitTree.remove, hk, find_of_split hsplit hne, Limit.splice]
  split <;> simp only [hsplit, eraseLimit_split rfl hne, updateLimit_split _ rfl hne, Limit.splice]

/-- **What `reduce` does to a side.** On a consistent side queueing `uid` under the map's record
`o` at `key`: `q ≤ o.quantity` comes off the level and the side, and the order is spliced out when
nothing is left of it. -/
theorem TreeOk.reduced (h : TreeOk side m t) (hnd : t.queued.Nodup) {uid : Nat} {o : Order}
    (ho : m.lookup uid = some o) (hq : uid ∈ t.queued) {key q : Nat} (hk : o.limit = some key)
    (hle : q ≤ o.quantity) :
    Reduced uid key o.quantity q t
      (if o.quantity - q = 0 then (t.reduceVolume key q).remove { o with quantity := o.quantity - q }
       else t.reduceVolume key q) := by
  obtain ⟨l, hl, hul⟩ := mem_queued.mp hq
  obtain ⟨hou, -, -, hol⟩ := h.resting_of_queued ho hl hul
  obtain rfl : l.key = key := Option.some.inj (hol.symm.trans hk)
  obtain ⟨pre, post, hsplit, hne⟩ := h.sorted.split hl
  have hlev := h.levels l hl
  have hfind := find_of_split hsplit hne
  have hvat : t.volumeAt l.key = l.volume := by simp [LimitTree.volumeAt, hfind]
  have hcat : t.countAt l.key = l.count := by simp [LimitTree.countAt, hfind]
  -- the other levels neither hold `uid` nor are empty
  have hothers : ∀ y ∈ pre ++ post, uid ∉ y.orders ∧ y.orders ≠ [] := fun y hy => by
    have hy' : y ∈ t.limits := by
      rw [hsplit]; simp only [List.mem_append, List.mem_cons] at hy ⊢; tauto
    exact ⟨not_mem_of_queued_nodup hnd hl hy' (fun e => hne y hy (e ▸ rfl)) hul,
      (h.levels y hy').nonempty⟩
  -- erasing `uid` from every FIFO of the side
  have herase : (t.fifos.map (·.erase uid)).filter (fun f => f ≠ []) =
      pre.map (·.orders) ++ (if l.orders.erase uid = [] then [] else [l.orders.erase uid]) ++
        post.map (·.orders) := by
    simp only [LimitTree.fifos, List.map_map, Function.comp_def, hsplit]
    exact fifos_erase_split hothers
  have hsplit₁ : (t.reduceVolume l.key q).limits =
      pre ++ { l with volume := l.volume - q } :: post := by
    simp only [LimitTree.reduceVolume, hsplit, updateLimit_split _ rfl hne]
  have hcount := hlev.count
  have hlen : 0 < l.orders.length := List.length_pos.mpr hlev.nonempty
  by_cases hz : q = o.quantity
  · -- nothing is left: the order is spliced out of the reduced level
    rw [if_pos (by omega), remove_split hsplit₁ hne (by simpa using hol)]
    by_cases hc : l.count - 1 = 0
    · -- the order was alone in its level, which goes
      have hone := hlev.orders_eq_singleton hul (by omega)
      have hvol : l.volume = o.quantity := by
        rw [hlev.volume, hone]; simp [quantityOf_of_lookup ho]
      have hgone : (pre ++ post).find? (fun y => y.key = l.key) = none := find?_of_forall_ne hne
      simp only [if_pos hc]
      refine ⟨by simp [LimitTree.reduceVolume]; omega, ?_, by simp [hz, LimitTree.reduceVolume], ?_,
        ?_⟩
      · rw [hvat]; simp only [LimitTree.volumeAt, LimitTree.find, hgone]; simp; omega
      · rw [if_pos hz, herase, hone]; simp [LimitTree.fifos]
      · rw [hcat]; simp only [LimitTree.find, hgone]; simp; omega
    · -- the level keeps other orders
      simp only [if_neg hc]
      have hne' : l.orders.erase uid ≠ [] := by
        rw [← List.length_pos, List.length_erase_of_mem hul]; omega
      have hstay : (pre ++ ({ l with volume := l.volume - q } : Limit).splice
          { o with quantity := o.quantity - q }.uid { o with quantity := o.quantity - q }.quantity ::
          post).find? (fun y => y.key = l.key) = some (({ l with volume := l.volume - q } : Limit).splice
          { o with quantity := o.quantity - q }.uid { o with quantity := o.quantity - q }.quantity) :=
        find?_split rfl hne
      refine ⟨by simp [LimitTree.reduceVolume, hz], ?_, by simp [hz, LimitTree.reduceVolume], ?_, ?_⟩
      · rw [hvat]; simp only [LimitTree.volumeAt, LimitTree.find, hstay]; simp [Limit.splice, hz]
      · rw [if_pos hz, herase, if_neg hne']; simp [LimitTree.fifos, Limit.splice, hou]
      · rw [hcat]; simp only [LimitTree.find, hstay]; simp; omega
  · -- something is left: only volumes drop
    have hfind₁ := find_of_split hsplit₁ hne
    rw [if_neg (by omega)]
    refine ⟨rfl, by rw [hvat]; simp [LimitTree.volumeAt, hfind₁], by simp [hz, LimitTree.reduceVolume],
      ?_, by simp [hfind₁, hz]⟩
    rw [if_neg hz]
    simp only [LimitTree.fifos, LimitTree.reduceVolume, updateLimit, List.map_map]
    exact List.map_congr_left fun y _ => by by_cases hy : y.key = l.key <;> simp [hy]

end Side

/-- Taking `a` and then `b` off a level's volume and its side's is taking `a + b`. -/
theorem LimitTree.reduceVolume_reduceVolume (t : LimitTree) (key a b : Nat) :
    (t.reduceVolume key a).reduceVolume key b = t.reduceVolume key (a + b) := by
  simp only [LimitTree.reduceVolume]
  rw [updateLimit_updateLimit (f := fun l => { l with volume := l.volume - a }) (fun _ => rfl)]
  simp only [Function.comp_def, Nat.sub_sub]

/-! ## §3 The order-entry book -/

section Book

variable {e : Engine} {uid q : Nat} {o : Order}

/-- `reduce` of an order with its back pointer set, by no more than it has, spelled out. -/
theorem reduce_of_le {key : Nat} (ho : e.orders.lookup uid = some o) (hq : q ≤ o.quantity)
    (hk : o.limit = some key) :
    LimitOrderBook.reduce e uid q = .ok
      (if o.quantity - q = 0 then
        { LimitTree.cancel o.side { e with
            trees := Function.update e.trees o.side ((e.trees o.side).reduceVolume key q),
            orders := e.orders.insert uid { o with quantity := o.quantity - q } }
            { o with quantity := o.quantity - q } with
          orders := (e.orders.insert uid { o with quantity := o.quantity - q }).erase uid }
       else { e with
         trees := Function.update e.trees o.side ((e.trees o.side).reduceVolume key q),
         orders := e.orders.insert uid { o with quantity := o.quantity - q } }) := by
  simp only [LimitOrderBook.reduce, ho, hk, gt_iff_lt, not_lt.mpr hq, if_false]
  split <;> rfl

/-- On a consistent book an order's back pointer names the level at its price. -/
theorem Inv.limit_of_lookup (h : Inv e) (ho : e.orders.lookup uid = some o) :
    o.limit = some o.price := by
  obtain ⟨hqd, -⟩ := h.book.queued_of_lookup ho
  obtain ⟨l, hl, hul⟩ := mem_queued.mp hqd
  obtain ⟨-, -, hop, hol⟩ := (h.book.trees o.side).resting_of_queued ho hl hul
  exact hop ▸ hol

/-- **`reduce` on a consistent book**, by no more than the order has: the order's side is
`Reduced`, the other side and every other record are kept, the order's record loses `q` or goes
when nothing is left, and the invariant holds after. -/
theorem Inv.reduce_exact (h : Inv e) (ho : e.orders.lookup uid = some o) (hq : q ≤ o.quantity) :
    ∃ e', LimitOrderBook.reduce e uid q = .ok e' ∧ Inv e' ∧
      Reduced uid o.price o.quantity q (e.trees o.side) (e'.trees o.side) ∧
      e'.trees o.side.not = e.trees o.side.not ∧
      e'.orders.lookup uid = (if q = o.quantity then none else some { o with quantity := o.quantity - q }) ∧
      ∀ v, v ≠ uid → e'.orders.lookup v = e.orders.lookup v := by
  have hk := h.limit_of_lookup ho
  have hr := (h.book.trees o.side).reduced (h.book.queued_nodup _) ho
    (h.book.queued_of_lookup ho).1 hk hq
  have hred := reduce_of_le ho hq hk
  refine ⟨_, hred, h.reduce hred, ?_, ?_, ?_, fun v hv => ?_⟩
  · by_cases hz : o.quantity - q = 0 <;> simpa [hz, LimitTree.cancel] using hr
  · split <;> simp [LimitTree.cancel, Function.update_noteq (Side.not_ne o.side)]
  · by_cases hz : q = o.quantity
    · rw [if_pos (by omega), if_pos hz]; exact AList.lookup_erase _ _
    · rw [if_neg (by omega), if_neg hz]; exact AList.lookup_insert _
  · split
    · exact (AList.lookup_erase_ne hv).trans (AList.lookup_insert_ne hv)
    · exact AList.lookup_insert_ne hv

/-- **Two reductions that leave something are one**, by their sum. -/
theorem reduce_reduce {key a b : Nat} (ho : e.orders.lookup uid = some o)
    (hk : o.limit = some key) (hab : a + b < o.quantity) :
    (LimitOrderBook.reduce e uid a >>= fun e₁ => LimitOrderBook.reduce e₁ uid b) =
      LimitOrderBook.reduce e uid (a + b) := by
  rw [reduce_of_le ho (by omega) hk, reduce_of_le ho (by omega) hk,
    if_neg (show o.quantity - a ≠ 0 by omega), if_neg (show o.quantity - (a + b) ≠ 0 by omega)]
  show LimitOrderBook.reduce _ uid b = _
  rw [reduce_of_le (o := { o with quantity := o.quantity - a }) (AList.lookup_insert _)
    (by simp only; omega) hk, if_neg (by simp only; omega)]
  simp only [Function.update_same, Function.update_idem, LimitTree.reduceVolume_reduceVolume,
    AList.insert_insert, Nat.sub_sub]

end Book

end CboeEmulator.OrderEntry.LOB

/-! ## §4 The mirror's composition law -/

namespace CboeEmulator.DataFeed.LOB.LimitOrderBook

/-- **Two reductions that leave something are one** in the mirror too, whatever else it holds. -/
theorem reduce_reduce {b : LimitOrderBook} {uid key a c : Nat} {o : Order}
    (ho : b.orders.lookup uid = some o) (hk : o.limit = some key) (hac : a + c < o.quantity) :
    (reduce b uid a >>= fun b₁ => reduce b₁ uid c) = reduce b uid (a + c) := by
  rw [reduce_of_lookup ho (by omega) hk, reduce_of_lookup ho (by omega) hk,
    if_neg (show o.quantity - a ≠ 0 by omega), if_neg (show o.quantity - (a + c) ≠ 0 by omega)]
  show reduce _ uid c = _
  rw [reduce_of_lookup (o := { o with quantity := o.quantity - a }) (AList.lookup_insert _)
    (by simp only; omega) hk, if_neg (by simp only; omega)]
  simp only [Function.update_same, Function.update_idem,
    OrderEntry.LOB.LimitTree.reduceVolume_reduceVolume, AList.insert_insert, Nat.sub_sub]

end CboeEmulator.DataFeed.LOB.LimitOrderBook

namespace CboeEmulator.OrderEntry.LOB

/-! ## §5 The mirror's reduce follows the book's -/

/-- **The mirror's `reduce` follows the book's.** On a mirror of a consistent book the mirror's
`reduce` throws exactly when the book's does, and where the book's returns, the mirror's returns
a mirror of its result. -/
theorem Mirrors.reduce {e : Engine} {b : DataFeed.LOB.LimitOrderBook} (hm : Mirrors [] e b)
    (h : Inv e) (uid q : Nat) :
    ((∃ err, DataFeed.LOB.LimitOrderBook.reduce b uid q = .error err) ↔
      ∃ err, LimitOrderBook.reduce e uid q = .error err) ∧
    ∀ e', LimitOrderBook.reduce e uid q = .ok e' →
      ∃ b', DataFeed.LOB.LimitOrderBook.reduce b uid q = .ok b' ∧ Mirrors [] e' b' := by
  cases ho : e.orders.lookup uid with
  | none =>
    have hb : b.orders.lookup uid = none := by rw [hm.orders uid (List.not_mem_nil _), ho]; rfl
    simp [LimitOrderBook.reduce, DataFeed.LOB.LimitOrderBook.reduce, ho, hb]
  | some o =>
    have hb := hm.lookup (List.not_mem_nil _) ho
    by_cases hq : o.quantity < q
    · simp [LimitOrderBook.reduce, DataFeed.LOB.LimitOrderBook.reduce, ho, hb, hq]
    have hk := h.limit_of_lookup ho
    replace hq := Nat.le_of_not_lt hq
    rw [reduce_of_le ho hq hk, DataFeed.LOB.LimitOrderBook.reduce_of_lookup hb hq hk]
    by_cases hz : o.quantity - q = 0
    · simp only [Order.toFeed_quantity, hz, if_true]
      refine ⟨by simp, ?_⟩
      rintro _ ⟨⟩
      refine ⟨_, rfl, ⟨?_, fun u _ => ?_, fun _ h => absurd h (List.not_mem_nil _)⟩⟩
      · simp [hz, hm.trees, LimitTree.cancel, ← LimitTree.remove_toFeed, Order.toFeed]
      · by_cases hu : u = uid
        · subst hu; simp [AList.lookup_erase]
        · simp [AList.lookup_erase_ne hu, AList.lookup_insert_ne hu, hm.orders u]
    · simp only [Order.toFeed_quantity, hz, if_false]
      refine ⟨by simp, ?_⟩
      rintro _ ⟨⟩
      refine ⟨_, rfl, ⟨by simp [hm.trees], fun u _ => ?_, fun _ h => absurd h (List.not_mem_nil _)⟩⟩
      by_cases hu : u = uid
      · subst hu; simp [Order.toFeed]
      · simp [AList.lookup_insert_ne hu, hm.orders u]

/-! ## §6 Both books -/

/-- What the spec says of `reduce` on the order-entry book `e`. -/
structure ReduceExact (e : Engine) : Prop where
  /-- an absent uid, or a quantity over what the order has, throws -/
  throws : ∀ uid q, (∀ o, e.orders.lookup uid = some o → o.quantity < q) →
    ∃ err, LimitOrderBook.reduce e uid q = .error err
  /-- otherwise the order, its level and its side lose exactly `q`, the order goes when nothing
  is left, every other record and the other side are kept, and the invariant holds after -/
  exact : ∀ uid q o, e.orders.lookup uid = some o → q ≤ o.quantity →
    ∃ e', LimitOrderBook.reduce e uid q = .ok e' ∧ Inv e' ∧
      Reduced uid o.price o.quantity q (e.trees o.side) (e'.trees o.side) ∧
      e'.trees o.side.not = e.trees o.side.not ∧
      e'.orders.lookup uid =
        (if q = o.quantity then none else some { o with quantity := o.quantity - q }) ∧
      ∀ v, v ≠ uid → e'.orders.lookup v = e.orders.lookup v
  /-- two reductions that leave something are one -/
  compose : ∀ uid a b o, e.orders.lookup uid = some o → a + b < o.quantity →
    (LimitOrderBook.reduce e uid a >>= fun e₁ => LimitOrderBook.reduce e₁ uid b) =
      LimitOrderBook.reduce e uid (a + b)

/-- What the spec says of `reduce` on the data feed's book `b`, whose invariant is that it mirrors
a consistent order-entry book. -/
structure FeedReduceExact (b : DataFeed.LOB.LimitOrderBook) : Prop where
  /-- an absent uid, or a quantity over what the order has, throws -/
  throws : ∀ uid q, (∀ o, b.orders.lookup uid = some o → o.quantity < q) →
    ∃ err, DataFeed.LOB.LimitOrderBook.reduce b uid q = .error err
  /-- otherwise the order, its level and its side lose exactly `q`, the order goes when nothing
  is left, every other record and the other side are kept, and the invariant holds after -/
  exact : ∀ uid q o, b.orders.lookup uid = some o → q ≤ o.quantity →
    ∃ b', DataFeed.LOB.LimitOrderBook.reduce b uid q = .ok b' ∧ (∃ e', Inv e' ∧ Mirrors [] e' b') ∧
      Reduced uid o.price o.quantity q (b.trees o.side) (b'.trees o.side) ∧
      b'.trees o.side.not = b.trees o.side.not ∧
      b'.orders.lookup uid =
        (if q = o.quantity then none else some { o with quantity := o.quantity - q }) ∧
      ∀ v, v ≠ uid → b'.orders.lookup v = b.orders.lookup v
  /-- two reductions that leave something are one -/
  compose : ∀ uid a c o, b.orders.lookup uid = some o → a + c < o.quantity →
    (DataFeed.LOB.LimitOrderBook.reduce b uid a >>= fun b₁ =>
      DataFeed.LOB.LimitOrderBook.reduce b₁ uid c) = DataFeed.LOB.LimitOrderBook.reduce b uid (a + c)

/-- A consistent order-entry book keeps the contract of `reduce`. -/
theorem Inv.reduceExact {e : Engine} (h : Inv e) : ReduceExact e where
  throws uid q hq := by
    cases ho : e.orders.lookup uid with
    | none => simp [LimitOrderBook.reduce, ho]
    | some o => simp [LimitOrderBook.reduce, ho, hq o ho]
  exact _ _ _ ho hq := h.reduce_exact ho hq
  compose _ _ _ _ ho hab := reduce_reduce ho (h.limit_of_lookup ho) hab

/-- The mirror's record of a uid is the book's. -/
theorem Mirrors.lookup_eq_some {e : Engine} {b : DataFeed.LOB.LimitOrderBook} (hm : Mirrors [] e b)
    {uid : Nat} {o : DataFeed.LOB.Order} (hb : b.orders.lookup uid = some o) :
    ∃ o₀, e.orders.lookup uid = some o₀ ∧ o = o₀.toFeed := by
  rw [hm.orders uid (List.not_mem_nil _), Option.map_eq_some'] at hb
  obtain ⟨o₀, ho, rfl⟩ := hb
  exact ⟨o₀, ho, rfl⟩

/-- A mirror of a consistent book keeps the contract of `reduce`. -/
theorem Mirrors.feedReduceExact {e : Engine} {b : DataFeed.LOB.LimitOrderBook}
    (hm : Mirrors [] e b) (h : Inv e) : FeedReduceExact b where
  throws uid q hq := (hm.reduce h uid q).1.mpr <| h.reduceExact.throws uid q fun o ho =>
    hq o.toFeed (hm.lookup (List.not_mem_nil _) ho)
  exact uid q o hb hq := by
    obtain ⟨o₀, ho, rfl⟩ := hm.lookup_eq_some hb
    obtain ⟨e', hr, hi, hred, hnot, hu, hv⟩ := h.reduce_exact ho hq
    obtain ⟨b', hr', hm'⟩ := (hm.reduce h uid q).2 e' hr
    refine ⟨b', hr', ⟨e', hi, hm'⟩, ?_, ?_, ?_, fun v hne => ?_⟩
    · simpa [hm.trees, hm'.trees] using hred
    · simpa [hm.trees, hm'.trees] using hnot
    · rw [hm'.orders uid (List.not_mem_nil _), hu]
      by_cases hz : q = o₀.quantity <;> simp [hz, Order.toFeed]
    · rw [hm'.orders v (List.not_mem_nil _), hm.orders v (List.not_mem_nil _), hv v hne]
  compose uid a c o hb hac := by
    obtain ⟨o₀, ho, rfl⟩ := hm.lookup_eq_some hb
    exact DataFeed.LOB.LimitOrderBook.reduce_reduce hb (h.limit_of_lookup ho) hac

/-- **`reduce` is exact and atomic, in both books.** On every order-entry book reachable from the
empty one by any calls, and on the book of every receiver that has replayed the feed of a book
reachable by the calls that report to it, `reduce` keeps its contract: an absent uid or too large
a quantity throws, and since the model's `reduce` returns no book when it throws, the caller keeps
the book it had; otherwise the order, its level and its side lose exactly `q`, the FIFOs keep
their order, the order and its emptied level go exactly when `q` is all it had, and the invariant
holds after; two reductions that leave something are one. -/
theorem reduce_exact_atomic :
    (∀ (accounts : AccountId → Account) (e : Engine),
      Reachable (fun _ => True) (Engine.init accounts) e → ReduceExact e) ∧
    ∀ (accounts : AccountId → Account) (e : Engine) (r : DataFeed.Receiver),
      Reachable Request.Reported (Engine.init accounts) e →
      DataFeed.Receiver.init.run e.feed = .ok r → FeedReduceExact r.book := by
  refine ⟨fun accounts _ h => (h.inv (Inv.init accounts)).reduceExact, fun accounts e r h hr => ?_⟩
  obtain ⟨r', hr', -, hm⟩ := h.replayed accounts
  cases hr.symm.trans hr'
  exact hm.feedReduceExact (h.inv (Inv.init accounts))

theorem reduce_exact_after_sell :
    ReduceExact (LimitOrderBook.limit (Engine.init fun _ => Account.new) "A" .sell 10 100).2 ∧
    ∀ r, DataFeed.Receiver.init.run
        (LimitOrderBook.limit (Engine.init fun _ => Account.new) "A" .sell 10 100).2.feed = .ok r →
      FeedReduceExact r.book :=
  ⟨reduce_exact_atomic.1 _ _ (.step (.limit "A" .sell 10 100) trivial .start rfl),
    fun r => reduce_exact_atomic.2 _ _ r (.step (.limit "A" .sell 10 100) trivial .start rfl)⟩

end CboeEmulator.OrderEntry.LOB

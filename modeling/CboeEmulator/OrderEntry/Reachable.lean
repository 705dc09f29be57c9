import CboeEmulator.OrderEntry.Matching

/-!
# Order-Entry Book: Reachable Books

The book as a state machine: its public calls (`Request`), the books reachable from a start by
calls that return normally (`Reachable`), and the invariant of `Invariant` kept by every call,
hence by every reachable book.

## Main results

- `limitSide_cases`: what `limit_sell` / `limit_buy` do, in three outcomes;
- `Inv.apply`: every call that returns normally keeps `Inv`;
- `Reachable.inv`: every book reachable from an empty one satisfies `Inv`;
- `reachable_represented`: the spec's own statement of the representation invariant.
-/

namespace CboeEmulator.OrderEntry.LOB

open LimitTree LimitOrderBook

/-! ## §1 Equations of the resting and canceling methods -/

section Equations

variable {side : Side} {e : Engine} {o : Order}

@[simp] theorem limit_trees :
    (LimitTree.limit side e o).trees = Function.update e.trees side ((e.trees side).insert side o) :=
  rfl
@[simp] theorem limit_orders :
    (LimitTree.limit side e o).orders = e.orders.insert o.uid { o with limit := some o.price } := rfl
@[simp] theorem cancel_trees :
    (LimitTree.cancel side e o).trees = Function.update e.trees side ((e.trees side).remove o) := rfl
@[simp] theorem cancel_orders : (LimitTree.cancel side e o).orders = e.orders := rfl
@[simp] theorem cancel_sequence : (LimitTree.cancel side e o).sequence = e.sequence := rfl

end Equations

/-! ## §2 The uid of the incoming order -/

section Extra

variable {e : Engine} {u : Nat}

theorem BookOk.not_queued_single (h : BookOk [u] e) : u ∉ e.sells.queued ++ e.buys.queued :=
  fun hq => (List.nodup_append.mp h.nodup).2.2 hq (List.mem_singleton_self u)

theorem erase_append_single {l : List Nat} (hu : u ∉ l) : (l ++ [u]).erase u = l := by
  rw [List.erase_append_right _ hu]; simp

/-- Emplacing a uid new to the map, unqueued. -/
theorem BookOk.emplace (h : BookOk [] e) (hu : u ∉ e.orders) (o : Order) :
    BookOk [u] { e with orders := e.orders.insert u o } := by
  refine h.reorders rfl (fun _ v hv => AList.lookup_insert_ne fun he => hu (he ▸ h.mem_of_queued hv))
    ?_
  rw [AList.keys_insert, List.erase_of_not_mem (mt AList.mem_keys.mpr hu)]
  exact ((h.keys.trans (by simp)).cons u).trans (List.perm_append_singleton _ _).symm

/-- Rewriting the record of the unqueued uid. -/
theorem BookOk.rewrite (h : BookOk [u] e) (o : Order) :
    BookOk [u] { e with orders := e.orders.insert u o } := by
  refine h.reorders rfl (fun s v hv => AList.lookup_insert_ne fun he =>
    h.not_queued_of_extra (List.mem_singleton_self u) s (he ▸ hv)) ?_
  rw [AList.keys_insert]
  have := h.keys.erase u
  rw [erase_append_single h.not_queued_single] at this
  exact (this.cons u).trans (List.perm_append_singleton _ _).symm

/-- Erasing the unqueued uid. -/
theorem BookOk.erase (h : BookOk [u] e) : BookOk [] { e with orders := e.orders.erase u } := by
  refine h.reorders rfl (fun s v hv => AList.lookup_erase_ne fun he =>
    h.not_queued_of_extra (List.mem_singleton_self u) s (he ▸ hv)) ?_
  have := h.keys.erase u
  rw [erase_append_single h.not_queued_single] at this
  simpa [AList.keys_erase] using this

/-- Resting the unqueued order `o` on its side keeps the book consistent, when its price beats
every opposite level. -/
theorem BookOk.limit {side : Side} {o : Order} (h : BookOk [u] e) (hu : o.uid = u)
    (hs : o.side = side) (hp : ∀ y ∈ (e.trees side.not).keys, better side.not o.price y) :
    BookOk [] (LimitTree.limit side e o) := by
  subst hu
  have hnq := h.not_queued_of_extra (List.mem_singleton_self o.uid)
  obtain ⟨ht, hQ, hK⟩ := (h.trees side).insert hs (AList.lookup_insert _)
    fun u hu => AList.lookup_insert_ne fun he => hnq side (he ▸ hu)
  refine h.update (by simp) (by simpa using ht)
    (fun u hu => AList.lookup_insert_ne fun he => hnq side.not (he ▸ hu)) ?_ fun p hp' => ?_
  · have := (h.keys_side side).erase o.uid
    rw [erase_append_single (by simp [hnq side, hnq side.not])] at this
    simpa [AList.keys_insert] using (this.cons o.uid).trans (hQ.symm.append_right _)
  · rcases List.mem_cons.mp (hK (by simpa using hp')) with rfl | hp'
    · exact .inr hp
    · exact .inl hp'

end Extra

/-! ## §3 Each call keeps the invariant -/

section Calls

variable {e e' : Engine}

/-- The invariant reads only the trees and the map. -/
theorem BookOk.congr {extra : List Nat} (h : BookOk extra e) (ht : e'.trees = e.trees)
    (ho : e'.orders = e.orders) : BookOk extra e' :=
  h.reorders ht (fun _ _ _ => by rw [ho]) (ho ▸ h.keys)

/-- The map's record of a uid on a consistent book rests on its own side. -/
theorem BookOk.queued_of_lookup (h : BookOk [] e) {uid : Nat} {o : Order}
    (hm : e.orders.lookup uid = some o) : uid ∈ (e.trees o.side).queued ∧ o.uid = uid := by
  have hmem : uid ∈ e.orders := mem_of_lookup hm
  have hk := h.keys.mem_iff.mp (AList.mem_keys.mp hmem)
  simp only [List.append_nil, List.mem_append] at hk
  rcases hk with hq | hq
  · obtain ⟨hu, hs, -⟩ := h.lookup_queued hq hm; exact ⟨hs ▸ hq, hu⟩
  · obtain ⟨hu, hs, -⟩ := h.lookup_queued hq hm; exact ⟨hs ▸ hq, hu⟩

/-- Canceling the map's record `o` of a uid and erasing it keeps the book consistent. -/
theorem BookOk.cancel (h : BookOk [] e) {uid : Nat} {o : Order}
    (hm : e.orders.lookup uid = some o) :
    BookOk [] { LimitTree.cancel o.side e o with orders := e.orders.erase uid } := by
  have hq := (h.queued_of_lookup hm).1
  exact (h.remove hq hm rfl rfl).1

end Calls

/-! ## §4 What `limit_sell` and `limit_buy` do -/

section LimitSide

variable {e : Engine}

/-- **What `limit_sell` / `limit_buy` do.** With the counter's uid free in the map, the new order
`o` is emplaced under it, and then either rests untouched, not crossing the opposite best; or
crosses it, runs the opposite tree's matching loop, and is dropped when that fills it; or
crosses, runs the loop, and rests with what is left. -/
theorem limitSide_cases (side : Side) (account : AccountId) (quantity price : Nat)
    (hfresh : e.sequence ∉ e.orders) :
    let o : Order := ⟨e.sequence, side, quantity, price, none, account⟩
    let e₁ : Engine := { e with orders := e.orders.insert e.sequence o }
    let r := LimitTree.market side.not e₁ o
    let e₂ : Engine := { r.1 with orders := r.1.orders.insert e.sequence r.2 }
    ((∀ key, (e.trees side.not).best = some key → ¬ crosses side key price) ∧
      limitSide side e account quantity price =
        (e.sequence, { LimitTree.limit side e₁ o with sequence := e.sequence + 1 })) ∨
    ((∃ key, (e.trees side.not).best = some key ∧ crosses side key price) ∧ r.2.quantity = 0 ∧
      limitSide side e account quantity price =
        (0, { e₂ with orders := e₂.orders.erase e.sequence })) ∨
    ((∃ key, (e.trees side.not).best = some key ∧ crosses side key price) ∧ r.2.quantity ≠ 0 ∧
      limitSide side e account quantity price =
        (e.sequence, { LimitTree.limit side e₂ r.2 with sequence := e.sequence + 1 })) := by
  intro o e₁ r e₂
  have hemp : e.orders.emplace e.sequence o = e.orders.insert e.sequence o := if_neg hfresh
  unfold limitSide
  simp only [hemp, AList.lookup_insert, Option.getD_some]
  split
  case h_1 key hb =>
    split
    case isTrue hc =>
      refine .inr ?_
      by_cases hq : r.2.quantity = 0
      · exact .inl ⟨⟨key, hb, hc⟩, hq, if_pos hq⟩
      · exact .inr ⟨⟨key, hb, hc⟩, hq, if_neg hq⟩
    case isFalse hc =>
      exact .inl ⟨fun k hk => Option.some.inj (hb.symm.trans hk) ▸ hc, rfl⟩
  case h_2 hb => exact .inl ⟨fun k hk => by simp [hb] at hk, rfl⟩

/-- A price that does not cross the opposite best beats it in the opposite side's priority. -/
theorem better_of_not_crosses {side : Side} {key p : Nat} (h : ¬ crosses side key p) :
    better side.not p key := by
  cases side <;> simp only [crosses, better, Side.not] at h ⊢ <;> omega

/-- **`limit_sell` and `limit_buy` keep the invariant.** -/
theorem Inv.limitSide (h : Inv e) (side : Side) (account : AccountId) (quantity price : Nat) :
    Inv (limitSide side e account quantity price).2 := by
  have hfresh : e.sequence ∉ e.orders := fun hm => Nat.lt_irrefl _ (h.fresh _ hm)
  set o : Order := ⟨e.sequence, side, quantity, price, none, account⟩
  set r := LimitTree.market side.not { e with orders := e.orders.insert e.sequence o } o
  have h₁ := h.book.emplace hfresh o
  have hfr : ∀ u ∈ e.orders.insert e.sequence o, u < e.sequence + 1 := fun u hu =>
    ((AList.mem_insert _).mp hu).elim (fun he => he ▸ Nat.lt_succ_self _)
      fun hu => Nat.lt_succ_of_lt (h.fresh u hu)
  obtain ⟨h₂, hK₂, hS₂, ho₂, -, hx₂⟩ := h₁.market side.not o
  rcases limitSide_cases side account quantity price hfresh with ⟨hnc, heq⟩ | ⟨-, hq, heq⟩ |
    ⟨-, hq, heq⟩ <;> rw [heq]
  · -- the order rests untouched
    refine ⟨(h₁.limit rfl rfl ((h.book.trees side.not).better_all fun key hb =>
      better_of_not_crosses (hnc key hb))).congr rfl rfl, fun u hu => ?_, Nat.succ_pos _⟩
    exact ((AList.mem_insert _).mp hu).elim (fun he => he ▸ Nat.lt_succ_self _) (hfr u)
  · -- the order is filled and dropped
    refine ⟨(h₂.rewrite _).erase, fun u hu => ?_, lt_of_lt_of_eq h.sequence_pos hS₂.symm⟩
    obtain ⟨hne, hu⟩ := AList.mem_erase.mp hu
    have hu := hfr u (AList.mem_keys.mpr (hK₂ (AList.mem_keys.mp
      (((AList.mem_insert _).mp hu).resolve_left hne))))
    simp only [hS₂]; omega
  · -- what is left of the order rests, beating every opposite level
    have huid : r.2.uid = e.sequence := by rw [ho₂]
    have hside : r.2.side = side := by rw [ho₂]
    have hp := (h₂.trees side.not).better_all fun key hb =>
      better_of_not_canMatch (((h₂.marketStep_eq_none hx₂).resolve_left hq) key hb)
    refine ⟨((h₂.rewrite _).limit huid hside hp).congr rfl rfl, fun u hu => ?_, Nat.succ_pos _⟩
    rcases (AList.mem_insert _).mp hu with he | hu
    · rw [he, huid]; exact Nat.lt_succ_self _
    rcases (AList.mem_insert _).mp hu with he | hu
    · rw [he]; exact Nat.lt_succ_self _
    exact hfr u (AList.mem_keys.mpr (hK₂ (AList.mem_keys.mp hu)))

end LimitSide

/-! ## §5 The other calls -/

section Calls

variable {e e' : Engine}

/-- `market_sell` / `market_buy` keep the invariant. -/
theorem Inv.marketSide (h : Inv e) (side : Side) (account : AccountId) (quantity : Nat) :
    Inv (marketSide side e account quantity) := by
  obtain ⟨hb, hK, hS, -⟩ := h.book.market side.not ⟨e.sequence, side, quantity, 0, none, account⟩
  exact ⟨hb, fun u hu => hS ▸ h.fresh u (AList.mem_keys.mpr (hK (AList.mem_keys.mp hu))),
    hS ▸ h.sequence_pos⟩

/-- `cancel` keeps the invariant. -/
theorem Inv.cancel (h : Inv e) {uid : Nat} (hr : LimitOrderBook.cancel e uid = .ok e') : Inv e' := by
  unfold LimitOrderBook.cancel at hr
  split at hr
  · cases hr
  case h_2 o hm =>
    cases hr
    exact ⟨h.book.cancel hm, fun u hu => h.fresh u (AList.mem_erase.mp hu).2, h.sequence_pos⟩

/-- `reduce` keeps the invariant, both when the order keeps some quantity and when it is
canceled. -/
theorem Inv.reduce (h : Inv e) {uid quantity : Nat}
    (hr : LimitOrderBook.reduce e uid quantity = .ok e') : Inv e' := by
  unfold LimitOrderBook.reduce at hr
  split at hr
  · cases hr
  case h_2 o hm =>
    split at hr
    · cases hr
    case isFalse hle =>
      split at hr
      · cases hr
      case h_2 key hk =>
        obtain ⟨hq, -⟩ := h.book.queued_of_lookup hm
        have hmem : uid ∈ e.orders := h.book.mem_of_queued hq
        have ht := (h.book.trees o.side).reduceVolume (h.book.queued_nodup _) hm hq hk
          (Nat.le_of_not_lt hle) (AList.lookup_insert _) fun v _ hne => AList.lookup_insert_ne hne
        have h₁ : BookOk [] { e with
            trees := Function.update e.trees o.side ((e.trees o.side).reduceVolume key quantity),
            orders := e.orders.insert uid { o with quantity := o.quantity - quantity } } :=
          h.book.update (by simp) (by simpa using ht)
          (fun v hv => AList.lookup_insert_ne fun he => (h.book.not_mem_other hq).1 (he ▸ hv))
          (by simpa [AList.keys_insert] using
            (List.perm_cons_erase (AList.mem_keys.mp hmem)).symm.trans (h.book.keys_side o.side))
          (fun p hp => .inl (by simpa using hp))
        have hfr : ∀ u ∈ e.orders.insert uid { o with quantity := o.quantity - quantity },
            u < e.sequence := fun u hu =>
          ((AList.mem_insert _).mp hu).elim (fun he => he ▸ h.fresh _ hmem) (h.fresh u)
        dsimp only at hr
        split at hr <;> cases hr
        · exact ⟨(h₁.cancel (AList.lookup_insert _)).congr rfl rfl,
            fun u hu => hfr u (AList.mem_erase.mp hu).2, h.sequence_pos⟩
        · exact ⟨h₁, hfr, h.sequence_pos⟩

/-- An empty side is consistent under any map. -/
theorem TreeOk.empty (side : Side) (m : UIDOrderMap) : TreeOk side m LimitTree.empty :=
  ⟨List.Pairwise.nil, by simp [LimitTree.empty], rfl, rfl, rfl⟩

/-- A book with both sides empty, an empty map and a positive counter satisfies the invariant. -/
theorem Inv.of_empty (ht : ∀ side, e.trees side = LimitTree.empty) (ho : e.orders = ∅)
    (hs : 0 < e.sequence) : Inv e where
  book := ⟨fun side => ht side ▸ TreeOk.empty side _, by simp [ho, ht, LimitTree.empty, queued],
    by simp [Uncrossed, ht, LimitTree.empty, keys]⟩
  fresh u hu := absurd (ho ▸ hu) (AList.not_mem_empty u)
  sequence_pos := hs

/-- `clear` leaves a book satisfying the invariant. -/
theorem Inv.clear (e : Engine) : Inv (LimitOrderBook.clear e) :=
  Inv.of_empty (fun _ => rfl) rfl Nat.one_pos

end Calls

/-! ## §6 Requests and reachable books -/

/-- A call of the book's public interface. -/
inductive Request where
  | limit (account : AccountId) (side : Side) (quantity price : Nat)
  | market (account : AccountId) (side : Side) (quantity : Nat)
  | cancel (uid : Nat)
  | reduce (uid quantity : Nat)
  | clear
  deriving DecidableEq, Repr

/-- The book after a call, or the exception the call throws. -/
def Request.apply : Request → Engine → Except BookError Engine
  | .limit account side quantity price, e => .ok (LimitOrderBook.limit e account side quantity price).2
  | .market account side quantity, e => .ok (LimitOrderBook.market e account side quantity)
  | .cancel uid, e => LimitOrderBook.cancel e uid
  | .reduce uid quantity, e => LimitOrderBook.reduce e uid quantity
  | .clear, e => .ok (LimitOrderBook.clear e)

/-- The books reachable from `e₀` by calls that `allowed` admits and that return normally. -/
inductive Reachable (allowed : Request → Prop) (e₀ : Engine) : Engine → Prop
  | start : Reachable allowed e₀ e₀
  | step {e e' : Engine} (r : Request) : allowed r → Reachable allowed e₀ e →
      r.apply e = .ok e' → Reachable allowed e₀ e'

/-- Runs compose. -/
theorem Reachable.trans {allowed : Request → Prop} {e₀ e₁ e₂ : Engine}
    (h₁ : Reachable allowed e₀ e₁) (h₂ : Reachable allowed e₁ e₂) : Reachable allowed e₀ e₂ := by
  induction h₂ with
  | start => exact h₁
  | step r hr _ ha ih => exact .step r hr ih ha

/-- The calls whose effect on the book the feed reports in full: `limit`, `market` and `cancel`.
The server makes no other. -/
def Request.Reported : Request → Prop
  | .limit .. => True
  | .market .. => True
  | .cancel _ => True
  | .reduce .. => False
  | .clear => False

theorem Request.Reported.ne_clear {r : Request} (h : r.Reported) : r ≠ .clear := by
  rintro rfl; exact h

/-- The account a call places an order for: that of `limit` and `market`. -/
def Request.account : Request → Option AccountId
  | .limit account .. => some account
  | .market account .. => some account
  | _ => none

/-- A run admitted by `allowed` is admitted by any weaker test. -/
theorem Reachable.mono {allowed allowed' : Request → Prop} (hw : ∀ r, allowed r → allowed' r)
    {e₀ e : Engine} (h : Reachable allowed e₀ e) : Reachable allowed' e₀ e := by
  induction h with
  | start => exact .start
  | step r hr _ ha ih => exact .step r (hw r hr) ih ha

/-- **Every call that returns normally keeps the invariant.** -/
theorem Inv.apply {e e' : Engine} (h : Inv e) (r : Request) (hr : r.apply e = .ok e') : Inv e' := by
  cases r with
  | limit account side quantity price =>
    cases hr; cases side
    · exact h.limitSide .sell account quantity price
    · exact h.limitSide .buy account quantity price
  | market account side quantity =>
    cases hr; cases side
    · exact h.marketSide .sell account quantity
    · exact h.marketSide .buy account quantity
  | cancel uid => exact h.cancel hr
  | reduce uid quantity => exact h.reduce hr
  | clear => cases hr; exact Inv.clear e

/-- **Every book reachable from one satisfying the invariant satisfies it.** -/
theorem Reachable.inv {allowed : Request → Prop} {e₀ e : Engine} (h : Reachable allowed e₀ e)
    (h₀ : Inv e₀) : Inv e := by
  induction h with
  | start => exact h₀
  | step r _ _ hr ih => exact ih.apply r hr

/-- The empty book satisfies the invariant. -/
theorem Inv.init (accounts : AccountId → Account) : Inv (Engine.init accounts) :=
  Inv.of_empty (fun _ => rfl) rfl Nat.one_pos

/-! ## §7 The representation invariant in the spec's terms -/

/-- The representation invariant of the book as the spec states it, for both sides. -/
structure Represented (e : Engine) : Prop where
  /-- (a) every order of the map is keyed by its own uid; its back pointer names a level of its
  side's tree, keyed by its price, whose queue holds it exactly once -/
  placed : ∀ u o, e.orders.lookup u = some o → o.uid = u ∧
    ∃ l ∈ (e.trees o.side).limits, o.limit = some l.key ∧ l.key = o.price ∧ l.orders.count u = 1
  /-- (a) no queue holds an order absent from the map -/
  queued : ∀ side, ∀ l ∈ (e.trees side).limits, ∀ u ∈ l.orders, u ∈ e.orders
  /-- (b) a level counts its queue, is not empty, and sums its orders' quantities -/
  level : ∀ side, ∀ l ∈ (e.trees side).limits, l.count = l.orders.length ∧ 1 ≤ l.count ∧
    l.volume = (l.orders.map (quantityOf e.orders)).sum
  /-- (b) the keys of a tree are distinct -/
  keys_nodup : ∀ side, (e.trees side).keys.Nodup
  /-- (c) a side's totals are the sums over its levels -/
  totals : ∀ side, (e.trees side).count = ((e.trees side).limits.map (·.count)).sum ∧
    (e.trees side).volume = ((e.trees side).limits.map (·.volume)).sum
  /-- (c) the map holds as many orders as the two sides count -/
  size : e.orders.keys.length = e.sells.count + e.buys.count
  /-- (d) `best` is null exactly when the side is empty -/
  best_none : ∀ side, (e.trees side).best = none ↔ (e.trees side).limits = []
  /-- (d) the best sell is the lowest sell key -/
  best_sell : ∀ key, e.sells.best = some key → key ∈ e.sells.keys ∧ ∀ k ∈ e.sells.keys, key ≤ k
  /-- (d) the best buy is the highest buy key -/
  best_buy : ∀ key, e.buys.best = some key → key ∈ e.buys.keys ∧ ∀ k ∈ e.buys.keys, k ≤ key
  /-- (e) the best buy is below the best sell -/
  spread : ∀ b s, e.buys.best = some b → e.sells.best = some s → b < s

/-- The proof invariant gives the spec's. -/
theorem Inv.represented {e : Engine} (h : Inv e) : Represented e where
  placed u o hm := by
    obtain ⟨hq, hu⟩ := h.book.queued_of_lookup hm
    obtain ⟨l, hl, hul⟩ := mem_queued.mp hq
    obtain ⟨-, -, hp, hlim⟩ := (h.book.trees o.side).resting_of_queued hm hl hul
    exact ⟨hu, l, hl, hlim, hp.symm,
      List.count_eq_one_of_mem (nodup_of_queued_nodup (h.book.queued_nodup _) hl) hul⟩
  queued _ l hl _ hu := h.book.mem_of_queued (mem_queued.mpr ⟨l, hl, hu⟩)
  level side l hl :=
    have hlev := (h.book.trees side).levels l hl
    ⟨hlev.count, hlev.count ▸ List.length_pos.mpr hlev.nonempty, hlev.volume⟩
  keys_nodup side := (sorted_iff_keys.mp (h.book.trees side).sorted).imp
    fun {a b} (hb : better side a b) (he : a = b) => by subst he; exact better_irrefl side a hb
  totals side := ⟨(h.book.trees side).count, (h.book.trees side).volume⟩
  size := by
    rw [h.book.keys.length_eq, (h.book.trees .sell).count_eq_length,
      (h.book.trees .buy).count_eq_length]
    simp
  best_none side := by rw [(h.book.trees side).best]; simp
  best_sell key hb :=
    have hs := (h.book.trees .sell).best_spec hb
    ⟨hs.1, fun k hk => (hs.2 k hk).elim (fun he => he ▸ le_rfl) Nat.le_of_lt⟩
  best_buy key hb :=
    have hs := (h.book.trees .buy).best_spec hb
    ⟨hs.1, fun k hk => (hs.2 k hk).elim (fun he => he ▸ le_rfl) Nat.le_of_lt⟩
  spread b s hb hs := h.book.uncrossed b ((h.book.trees .buy).best_spec hb).1 s
    ((h.book.trees .sell).best_spec hs).1

/-- **The representation invariant holds on every reachable book**: every book reachable from
the empty one by `limit`, `market`, `cancel`, `reduce` and `clear` calls that return normally
satisfies it, for both sides. -/
theorem reachable_represented (accounts : AccountId → Account) {e : Engine}
    (h : Reachable (fun _ => True) (Engine.init accounts) e) : Represented e :=
  (h.inv (Inv.init accounts)).represented

theorem represented_after_limit :
    Represented (LimitOrderBook.limit (Engine.init fun _ => Account.new) "A" .sell 10 100).2 :=
  reachable_represented _ (.step (.limit "A" .sell 10 100) trivial .start rfl)

/-! ## §8 Orders for no shares

Nothing in `limit_sell` / `limit_buy` looks at the quantity before resting: an order for no shares
that crosses nothing rests, gets a uid, and is traded later for no shares. -/

/-- A limit sell for no shares on an empty book is given uid 1 and rests, keeping a price level
of its own, where the reference auction returns 0 and leaves the book as it was. -/
theorem limit_zero_quantity_returns_uid :
    (LimitOrderBook.limit (Engine.init fun _ => Account.new) "A" .sell 0 100).1 = 1 ∧
    ((LimitOrderBook.limit (Engine.init fun _ => Account.new) "A" .sell 0 100).2.trees .sell).keys =
      [100] := by
  decide

/-- A reachable book holds an order for no shares, in the map and in a price level; a market buy
then reports a fill of no shares through the maker's `limit_fill` and a trade of no shares on
the feed. -/
theorem zero_quantity_order_rests_and_trades :
    Reachable (fun _ => True) (Engine.init fun _ => Account.new)
      (LimitOrderBook.limit (Engine.init fun _ => Account.new) "A" .sell 0 100).2 ∧
    (LimitOrderBook.limit (Engine.init fun _ => Account.new) "A" .sell 0 100).2.orders.lookup 1 =
      some ⟨1, .sell, 0, 100, some 100, "A"⟩ ∧
    ((LimitOrderBook.limit (Engine.init fun _ => Account.new) "A" .sell 0 100).2.trees .sell).limits =
      [⟨100, 1, 0, [1]⟩] ∧
    (LimitOrderBook.market (LimitOrderBook.limit (Engine.init fun _ => Account.new) "A" .sell 0 100).2
      "B" .buy 5).fills.head? =
      some (.limitFill ⟨1, .sell, 0, 100, some 100, "A"⟩ ⟨2, .buy, 5, 0, none, "B"⟩) ∧
    DataFeed.Messages.Message.trade 1 100 0 'B' ∈
      (LimitOrderBook.market (LimitOrderBook.limit (Engine.init fun _ => Account.new) "A" .sell 0 100).2
        "B" .buy 5).feed :=
  ⟨.step (.limit "A" .sell 0 100) trivial .start rfl, by decide, by decide, by decide, by decide⟩

end CboeEmulator.OrderEntry.LOB

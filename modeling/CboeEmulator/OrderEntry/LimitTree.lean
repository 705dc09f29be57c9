import CboeEmulator.OrderEntry.Structures

/-!
# Order-Entry Book: the Nat-Level Tree

`LimitTree<side>` is declared in `limit_tree.hpp`, which is not among the sources, together with
the binary search tree and the intrusive list it is built from. Everything here is modelled from
the spec (§4.1, §4.2) and from what `test_limit_tree.cpp` observes of the tree.

The tree is kept as the in-order walk of its search tree in price priority, best level first:
ascending for sells, descending for buys (`better`). The cached `best` pointer is a separate field,
set on every insert that extends the extremum and recomputed on every erase of the extremum, so
that its agreement with the head of the walk is an invariant and not a definition.

This file holds the pure index operations; the methods that also touch orders, accounts and the
feed are in `LimitOrderBook`.
-/

namespace CboeEmulator.OrderEntry.LOB

/-! ## §1 Nat priority -/

/-- Nat priority of resting prices on a side: `better side p q` when a level at `p` is matched
before one at `q` (lower first for sells, higher first for buys). -/
def better : Side → Nat → Nat → Prop
  | .sell, p, q => p < q
  | .buy, p, q => q < p

instance : ∀ (side : Side) (p q : Nat), Decidable (better side p q)
  | .sell, p, q => inferInstanceAs (Decidable (p < q))
  | .buy, p, q => inferInstanceAs (Decidable (q < p))

/-- A list of levels is in strict price priority. -/
def Sorted (side : Side) (ls : List Limit) : Prop :=
  ls.Pairwise fun a b => better side a.key b.key

/-! ## §2 Levels -/

namespace Limit

/-- Modelled from the spec (§4.1): append an order at the tail of the level's FIFO. -/
def append (l : Limit) (uid : Nat) (quantity : Nat) : Limit :=
  { l with count := l.count + 1, volume := l.volume + quantity, orders := l.orders ++ [uid] }

/-- Modelled from the spec (§4.1): splice an order out of the level's FIFO. -/
def splice (l : Limit) (uid : Nat) (quantity : Nat) : Limit :=
  { l with count := l.count - 1, volume := l.volume - quantity, orders := l.orders.erase uid }

end Limit

/-- The level at `key` after `f`, every other level as it was. -/
def updateLimit (key : Nat) (f : Limit → Limit) (ls : List Limit) : List Limit :=
  ls.map fun l => if l.key = key then f l else l

/-- Every level but the one at `key`. -/
def eraseLimit (key : Nat) (ls : List Limit) : List Limit :=
  ls.filter fun l => l.key != key

/-- Modelled from the spec (§4.1, `BST::insert<side>`): a new level goes in at its priority. -/
def insertLimit (side : Side) (l : Limit) : List Limit → List Limit
  | [] => [l]
  | x :: xs => if better side l.key x.key then l :: x :: xs else x :: insertLimit side l xs

/-- Modelled from the spec (§4.1, `set_best<side>`): a new level at `key` becomes the best one
when the side was empty or `key` beats the old best. -/
def setBest (side : Side) (best : Option Nat) (key : Nat) : Option Nat :=
  match best with
  | none => some key
  | some b => if better side key b then some key else some b

/-! ## §3 The tree -/

/-- Modelled from the spec (§3, §4.1): `LimitTree<side>` of `limit_tree.hpp`. `limits` is the
in-order walk of the search tree in price priority; `best` is the cached best level, given by
its key; `count` and `volume` are the side totals. -/
structure LimitTree where
  /-- the levels, best first -/
  limits : List Limit
  /-- the best level (`nullptr` is `none`) -/
  best : Option Nat
  /-- the total number of orders in the tree -/
  count : Nat
  /-- the total volume of orders in the tree -/
  volume : Nat
  deriving DecidableEq, Repr

namespace LimitTree

/-- Modelled from the spec: the tree of `LimitTree()`, with no levels. -/
def empty : LimitTree := ⟨[], none, 0, 0⟩

/-- Modelled from the spec: the level at a price, if any (`limits.at(price)`). -/
def find (t : LimitTree) (price : Nat) : Option Limit :=
  t.limits.find? fun l => l.key = price

/-- Modelled from the spec: `volume_at(price)`, 0 when no level sits at the price. -/
def volumeAt (t : LimitTree) (price : Nat) : Nat :=
  ((t.find price).map (·.volume)).getD 0

/-- Modelled from the spec: `count_at(price)`, 0 when no level sits at the price. -/
def countAt (t : LimitTree) (price : Nat) : Nat :=
  ((t.find price).map (·.count)).getD 0

/-- The uids queued in the tree, level by level, each FIFO head first. -/
def queued (t : LimitTree) : List Nat :=
  t.limits.flatMap (·.orders)

/-- The number of orders queued in the tree: the budget of the matching loop. -/
def size (t : LimitTree) : Nat :=
  (t.limits.map fun l => l.orders.length).sum

/-- Modelled from the spec (§4.2, `limit(order)`): append the order to the level at its price,
creating the level (and moving `best`) when there is none, and add it to the side totals. -/
def insert (side : Side) (t : LimitTree) (o : Order) : LimitTree :=
  match t.find o.price with
  | some _ =>
    { t with limits := updateLimit o.price (·.append o.uid o.quantity) t.limits,
             count := t.count + 1, volume := t.volume + o.quantity }
  | none =>
    { limits := insertLimit side (Limit.ofOrder o) t.limits,
      best := setBest side t.best o.price,
      count := t.count + 1, volume := t.volume + o.quantity }

/-- Modelled from the spec (§4.1, §4.2, `remove(order)`): splice the order out of the level its
back pointer names; when the level's count reaches 0 erase the level, and if it was the best one
take the new extremum; take the order off the side totals. -/
def remove (t : LimitTree) (o : Order) : LimitTree :=
  match o.limit with
  | none => t
  | some key =>
    match t.find key with
    | none => t
    | some l =>
      let l' := l.splice o.uid o.quantity
      if l'.count = 0 then
        let ls := eraseLimit key t.limits
        { limits := ls,
          best := if t.best = some key then ls.head?.map (·.key) else t.best,
          count := t.count - 1, volume := t.volume - o.quantity }
      else
        { t with limits := updateLimit key (fun _ => l') t.limits,
                 count := t.count - 1, volume := t.volume - o.quantity }

/-- Modelled from the spec (§4.2, the partial fill; §4.3 `reduce`): take `quantity` off the
volume of the level at `key` and off the side's volume. -/
def reduceVolume (t : LimitTree) (key : Nat) (quantity : Nat) : LimitTree :=
  { t with limits := updateLimit key (fun l => { l with volume := l.volume - quantity }) t.limits,
           volume := t.volume - quantity }

/-- Modelled from the spec (§4.3 `clear`): every level and node goes. -/
def clear (_t : LimitTree) : LimitTree := empty

end LimitTree


/-! ## §4 Nat priority is a strict total order -/

theorem better_irrefl (side : Side) (p : Nat) : ¬ better side p p := by
  cases side <;> simp [better]

theorem better_trans {side : Side} {p q r : Nat} (h₁ : better side p q) (h₂ : better side q r) :
    better side p r := by
  cases side
  · exact Nat.lt_trans h₁ h₂
  · exact Nat.lt_trans h₂ h₁

theorem better_asymm {side : Side} {p q : Nat} (h : better side p q) : ¬ better side q p := by
  cases side <;> exact Nat.lt_asymm h

theorem better_total {side : Side} {p q : Nat} (h : p ≠ q) : better side p q ∨ better side q p := by
  cases side
  · exact Nat.lt_or_gt_of_ne h
  · exact (Nat.lt_or_gt_of_ne h).symm

/-! ## §5 Sorted level lists -/

/-- A sorted list is sorted in the order of its keys. -/
theorem sorted_iff_keys {side : Side} {ls : List Limit} :
    Sorted side ls ↔ (ls.map (·.key)).Pairwise (better side) := by
  simp [Sorted, List.pairwise_map]

theorem Sorted.tail {side : Side} {l : Limit} {ls : List Limit} (h : Sorted side (l :: ls)) :
    Sorted side ls := (List.pairwise_cons.mp h).2

/-- The head of a sorted list beats every other level. -/
theorem Sorted.head_better {side : Side} {l : Limit} {ls : List Limit} (h : Sorted side (l :: ls)) :
    ∀ x ∈ ls, better side l.key x.key := (List.pairwise_cons.mp h).1

theorem Sorted.key_ne {side : Side} {l : Limit} {ls : List Limit} (h : Sorted side (l :: ls)) :
    ∀ x ∈ ls, x.key ≠ l.key := fun x hx e => better_irrefl side l.key (e ▸ h.head_better x hx)

/-- In a sorted list a key names one level. -/
theorem Sorted.eq_of_key {side : Side} {ls : List Limit} (h : Sorted side ls) {a b : Limit}
    (ha : a ∈ ls) (hb : b ∈ ls) (hk : a.key = b.key) : a = b := by
  induction ls with
  | nil => cases ha
  | cons l ls ih =>
    rcases List.mem_cons.mp ha with ha | ha <;> rcases List.mem_cons.mp hb with hb | hb
    · exact ha.trans hb.symm
    · exact absurd (ha ▸ hk).symm (h.key_ne b hb)
    · exact absurd (hb ▸ hk) (h.key_ne a ha)
    · exact ih h.tail ha hb

/-- A level of a sorted list splits it, the other keys differing from its own. -/
theorem Sorted.split {side : Side} {ls : List Limit} (h : Sorted side ls) {l : Limit}
    (hl : l ∈ ls) : ∃ pre post, ls = pre ++ l :: post ∧ ∀ x ∈ pre ++ post, x.key ≠ l.key := by
  obtain ⟨pre, post, rfl⟩ := List.append_of_mem hl
  refine ⟨pre, post, rfl, fun x hx e => ?_⟩
  obtain ⟨-, hlp, hpre⟩ := List.pairwise_append.mp h
  rcases List.mem_append.mp hx with hx | hx
  · exact better_irrefl side _ (e ▸ hpre x hx l (List.mem_cons_self _ _))
  · exact Sorted.key_ne hlp x hx e

/-! ## §6 Lookup and update by key -/

namespace LimitTree

theorem find_eq_none {t : LimitTree} {k : Nat} : t.find k = none ↔ ∀ l ∈ t.limits, l.key ≠ k := by
  simp [find]

theorem find_some {t : LimitTree} {k : Nat} {l : Limit} (h : t.find k = some l) :
    l ∈ t.limits ∧ l.key = k :=
  ⟨List.mem_of_find?_eq_some h, by simpa using List.find?_some h⟩

/-- In a sorted tree `find` returns the level with the key. -/
theorem find_eq_some {side : Side} {t : LimitTree} (hs : Sorted side t.limits) {k : Nat}
    {l : Limit} : t.find k = some l ↔ l ∈ t.limits ∧ l.key = k := by
  refine ⟨find_some, fun ⟨hl, hk⟩ => ?_⟩
  cases h : t.find k with
  | none => exact absurd hk (find_eq_none.mp h l hl)
  | some l' =>
    obtain ⟨hl', hk'⟩ := find_some h
    rw [hs.eq_of_key hl' hl (hk'.trans hk.symm)]

end LimitTree

/-- Rewriting the level at `k` by an `f` that keeps its key keeps every key. -/
theorem updateLimit_keys (k : Nat) (f : Limit → Limit) (hf : ∀ l, l.key = k → (f l).key = k)
    (ls : List Limit) : (updateLimit k f ls).map (·.key) = ls.map (·.key) := by
  simp only [updateLimit, List.map_map]
  exact List.map_congr_left fun l _ => by by_cases h : l.key = k <;> simp [h, hf]

theorem Sorted.updateLimit {side : Side} {ls : List Limit} (h : Sorted side ls) {k : Nat}
    {f : Limit → Limit} (hf : ∀ l, l.key = k → (f l).key = k) :
    Sorted side (updateLimit k f ls) := by
  rw [sorted_iff_keys, updateLimit_keys k f hf]; exact sorted_iff_keys.mp h

theorem updateLimit_head_key (k : Nat) (f : Limit → Limit) (hf : ∀ l, l.key = k → (f l).key = k)
    (ls : List Limit) : (updateLimit k f ls).head?.map (·.key) = ls.head?.map (·.key) := by
  cases ls <;> simp only [updateLimit, List.map_cons, List.map_nil, List.head?_cons,
    List.head?_nil, Option.map_some', Option.map_none']
  split <;> simp_all

theorem updateLimit_of_forall_ne {k : Nat} (f : Limit → Limit) {ls : List Limit}
    (h : ∀ x ∈ ls, x.key ≠ k) : updateLimit k f ls = ls :=
  (List.map_congr_left fun x hx => by simp [h x hx]).trans (List.map_id _)

theorem updateLimit_split {k : Nat} (f : Limit → Limit) {pre post : List Limit} {l : Limit}
    (hk : l.key = k) (hne : ∀ x ∈ pre ++ post, x.key ≠ k) :
    updateLimit k f (pre ++ l :: post) = pre ++ f l :: post := by
  have hpre := updateLimit_of_forall_ne f fun x hx => hne x (List.mem_append_left _ hx)
  have hpost := updateLimit_of_forall_ne f fun x hx => hne x (List.mem_append_right _ hx)
  simp only [updateLimit] at hpre hpost ⊢
  simp [hpre, hpost, hk]

theorem eraseLimit_split {k : Nat} {pre post : List Limit} {l : Limit}
    (hk : l.key = k) (hne : ∀ x ∈ pre ++ post, x.key ≠ k) :
    eraseLimit k (pre ++ l :: post) = pre ++ post := by
  simp only [eraseLimit, List.filter_append, List.filter_cons, hk, bne_self_eq_false]
  rw [List.filter_eq_self.mpr, List.filter_eq_self.mpr]
  · simp
  · intro x hx; simpa using hne x (by simp [hx])
  · intro x hx; simpa using hne x (by simp [hx])


/-! ## §7 Inserting a level -/

theorem insertLimit_perm (side : Side) (l : Limit) (ls : List Limit) :
    (insertLimit side l ls).Perm (l :: ls) := by
  induction ls with
  | nil => rfl
  | cons x xs ih =>
    simp only [insertLimit]
    split
    · rfl
    · exact (ih.cons x).trans (List.Perm.swap l x xs)

theorem Sorted.insertLimit {side : Side} {ls : List Limit} (h : Sorted side ls) {l : Limit}
    (hk : ∀ x ∈ ls, x.key ≠ l.key) : Sorted side (insertLimit side l ls) := by
  induction ls with
  | nil => exact List.pairwise_singleton _ _
  | cons x xs ih =>
    simp only [LOB.insertLimit]
    split
    case isTrue hb =>
      exact List.pairwise_cons.mpr ⟨fun y hy => by
        rcases List.mem_cons.mp hy with rfl | hy
        · exact hb
        · exact better_trans hb (h.head_better y hy), h⟩
    case isFalse hb =>
      have hxl : better side x.key l.key :=
        (better_total (hk x (List.mem_cons_self _ _))).resolve_right hb
      refine List.pairwise_cons.mpr ⟨fun y hy => ?_, ih h.tail fun y hy => hk y (by simp [hy])⟩
      rcases List.mem_cons.mp ((insertLimit_perm side l xs).mem_iff.mp hy) with rfl | hy
      · exact hxl
      · exact h.head_better y hy

/-- Inserting a level moves the best key as `set_best` does. -/
theorem insertLimit_head_key (side : Side) (l : Limit) (ls : List Limit) :
    (insertLimit side l ls).head?.map (·.key) = setBest side (ls.head?.map (·.key)) l.key := by
  cases ls with
  | nil => rfl
  | cons x xs => simp only [insertLimit, setBest]; split <;> simp_all

end CboeEmulator.OrderEntry.LOB

import CboeEmulator.OrderEntry.LimitOrderBook

/-!
# Order-Entry Book: the Representation Invariant

The book stores every fact about a resting order several times: in the UID map, in the FIFO of
its level, in the level's `count` and `volume`, in the side's totals and in the cached `best`
pointer. `Inv` says these copies agree. This file states it and proves that each tree operation
keeps its part of it.

## Layers

- `LevelOk`, `TreeOk`: one level, one side, against the UID map.
- `BookOk extra`: both sides, the map holding exactly the queued orders and `extra` (the
  incoming order of `limit_sell` / `limit_buy` sits in the map, unqueued, while it matches),
  and no buy level at or above a sell level.
- `Inv`: `BookOk []`, and every key of the map below `sequence`, which is positive (0 is the uid
  `limit` returns for an order that did not rest).
- One lemma per tree operation (`TreeOk.insert`, `TreeOk.remove`, `TreeOk.reduceVolume`), each
  saying what the operation does to the queued uids and to the keys; the matching loop and the
  book's operations are proved from them in `Matching` and `Reachable`.
-/

namespace CboeEmulator.OrderEntry.LOB

open LimitTree

/-- The keys of a tree's levels, best first. -/
def LimitTree.keys (t : LimitTree) : List Nat := t.limits.map (·.key)

/-! ## §1 The invariant -/

/-- The remaining quantity of the order under `uid`, 0 when the map has none. -/
def quantityOf (m : UIDOrderMap) (uid : Nat) : Nat :=
  ((m.lookup uid).map (·.quantity)).getD 0

/-- The map's record under `uid` is an order of side `side` resting in the level at `key`: it is
keyed by its own uid and its back pointer names that level. -/
def Resting (side : Side) (m : UIDOrderMap) (key uid : Nat) : Prop :=
  ∃ o, m.lookup uid = some o ∧ o.uid = uid ∧ o.side = side ∧ o.price = key ∧ o.limit = some key

/-- A level agrees with the orders it queues. -/
structure LevelOk (side : Side) (m : UIDOrderMap) (l : Limit) : Prop where
  nonempty : l.orders ≠ []
  count : l.count = l.orders.length
  volume : l.volume = (l.orders.map (quantityOf m)).sum
  resting : ∀ u ∈ l.orders, Resting side m l.key u

/-- A side agrees with its levels and the map. -/
structure TreeOk (side : Side) (m : UIDOrderMap) (t : LimitTree) : Prop where
  sorted : Sorted side t.limits
  levels : ∀ l ∈ t.limits, LevelOk side m l
  best : t.best = t.limits.head?.map (·.key)
  count : t.count = (t.limits.map (·.count)).sum
  volume : t.volume = (t.limits.map (·.volume)).sum

/-- Every buy level is below every sell level. -/
def Uncrossed (trees : Side → LimitTree) : Prop :=
  ∀ b ∈ (trees .buy).keys, ∀ s ∈ (trees .sell).keys, b < s

/-- Both sides agree with the map, the map holds the queued orders and `extra`, and the sides do
not cross. -/
structure BookOk (extra : List Nat) (e : Engine) : Prop where
  trees : ∀ side, TreeOk side e.orders (e.trees side)
  keys : e.orders.keys.Perm (e.sells.queued ++ e.buys.queued ++ extra)
  uncrossed : Uncrossed e.trees

/-- **The representation invariant** of the book. -/
structure Inv (e : Engine) : Prop where
  book : BookOk [] e
  fresh : ∀ u ∈ e.orders, u < e.sequence
  sequence_pos : 0 < e.sequence

/-! ## §2 Sums, frames and splits -/

theorem quantityOf_congr {m m' : UIDOrderMap} {u : Nat} (h : m'.lookup u = m.lookup u) :
    quantityOf m' u = quantityOf m u := by
  simp [quantityOf, h]

theorem quantityOf_of_lookup {m : UIDOrderMap} {u : Nat} {o : Order} (h : m.lookup u = some o) :
    quantityOf m u = o.quantity := by
  simp [quantityOf, h]

/-- Summing quantities over uids the two maps agree on. -/
theorem sum_quantityOf_congr {m m' : UIDOrderMap} {us : List Nat}
    (h : ∀ u ∈ us, m'.lookup u = m.lookup u) :
    (us.map (quantityOf m')).sum = (us.map (quantityOf m)).sum := by
  rw [List.map_congr_left fun u hu => quantityOf_congr (h u hu)]

section Update

variable {m m' : UIDOrderMap} {us : List Nat} {u : Nat}

/-- Summing quantities over uids without repeats, one of them dropped, under a map that agrees
off it. -/
theorem sum_quantityOf_erase (hu : u ∈ us) (hnd : us.Nodup)
    (h : ∀ v ∈ us, v ≠ u → m'.lookup v = m.lookup v) :
    ((us.erase u).map (quantityOf m')).sum + quantityOf m u = (us.map (quantityOf m)).sum := by
  rw [sum_quantityOf_congr fun v hv => h v (List.mem_of_mem_erase hv) (hnd.mem_erase_iff.mp hv).1,
    ← List.sum_map_erase _ hu, Nat.add_comm]

/-- Summing quantities over uids without repeats under two maps that differ at `u` only. -/
theorem sum_quantityOf_update (hu : u ∈ us) (hnd : us.Nodup)
    (h : ∀ v ∈ us, v ≠ u → m'.lookup v = m.lookup v) :
    (us.map (quantityOf m')).sum + quantityOf m u =
      (us.map (quantityOf m)).sum + quantityOf m' u := by
  rw [← sum_quantityOf_erase hu hnd h, ← List.sum_map_erase (quantityOf m') hu]; omega

end Update

theorem LevelOk.frame {side : Side} {m m' : UIDOrderMap} {l : Limit} (h : LevelOk side m l)
    (hm : ∀ u ∈ l.orders, m'.lookup u = m.lookup u) : LevelOk side m' l where
  nonempty := h.nonempty
  count := h.count
  volume := h.volume.trans (sum_quantityOf_congr hm).symm
  resting u hu := by simpa only [Resting, hm u hu] using h.resting u hu

/-- A level of count at most 1 queues only the uid it holds. -/
theorem LevelOk.orders_eq_singleton {side : Side} {m : UIDOrderMap} {l : Limit}
    (h : LevelOk side m l) {u : Nat} (hu : u ∈ l.orders) (hc : l.count ≤ 1) : l.orders = [u] := by
  have := List.length_pos.mpr h.nonempty
  obtain ⟨a, ha⟩ := List.length_eq_one.mp (show l.orders.length = 1 by have := h.count; omega)
  rw [ha, List.eq_of_mem_singleton (ha ▸ hu : u ∈ [a])]

theorem mem_queued {t : LimitTree} {u : Nat} : u ∈ t.queued ↔ ∃ l ∈ t.limits, u ∈ l.orders := by
  simp [queued]

theorem TreeOk.frame {side : Side} {m m' : UIDOrderMap} {t : LimitTree} (h : TreeOk side m t)
    (hm : ∀ u ∈ t.queued, m'.lookup u = m.lookup u) : TreeOk side m' t :=
  ⟨h.sorted, fun l hl => (h.levels l hl).frame fun u hu => hm u (mem_queued.mpr ⟨l, hl, hu⟩),
    h.best, h.count, h.volume⟩

/-- The queue of a tree split at one of its levels. -/
theorem queued_split {t : LimitTree} {pre post : List Limit} {l : Limit}
    (h : t.limits = pre ++ l :: post) :
    t.queued = pre.flatMap (·.orders) ++ l.orders ++ post.flatMap (·.orders) := by
  simp [queued, h]

/-- A uid queued in one level of a tree without repeats is in no other level. -/
theorem not_mem_of_queued_nodup {t : LimitTree} (hnd : t.queued.Nodup) {l x : Limit}
    (hl : l ∈ t.limits) (hx : x ∈ t.limits) (hne : x ≠ l) {u : Nat} (hu : u ∈ l.orders) :
    u ∉ x.orders :=
  fun hux => (List.nodup_flatMap.mp hnd).2.forall (fun _ _ h => h.symm) hx hl hne hux hu

theorem nodup_of_queued_nodup {t : LimitTree} (hnd : t.queued.Nodup) {l : Limit}
    (hl : l ∈ t.limits) : l.orders.Nodup :=
  (List.nodup_flatMap.mp hnd).1 l hl

/-- The sum of a level statistic over a sorted list, with the level at `l.key` rewritten. -/
theorem sum_updateLimit {side : Side} {ls : List Limit} (hs : Sorted side ls) {l : Limit}
    (hl : l ∈ ls) (f : Limit → Limit) (g : Limit → Nat) :
    ((updateLimit l.key f ls).map g).sum + g l = (ls.map g).sum + g (f l) := by
  obtain ⟨pre, post, rfl, hne⟩ := hs.split hl
  rw [updateLimit_split f rfl hne]; simp; omega

/-- The sum of a level statistic over a sorted list, with the level at `l.key` erased. -/
theorem sum_eraseLimit {side : Side} {ls : List Limit} (hs : Sorted side ls) {l : Limit}
    (hl : l ∈ ls) (g : Limit → Nat) : ((eraseLimit l.key ls).map g).sum + g l = (ls.map g).sum := by
  obtain ⟨pre, post, rfl, hne⟩ := hs.split hl
  rw [eraseLimit_split rfl hne]; simp; omega

theorem mem_updateLimit {k : Nat} {f : Limit → Limit} {ls : List Limit} {x : Limit}
    (hx : x ∈ updateLimit k f ls) : ∃ y ∈ ls, if y.key = k then x = f y else x = y := by
  obtain ⟨y, hy, rfl⟩ := List.mem_map.mp hx
  exact ⟨y, hy, by split <;> rfl⟩

/-- A level's statistic is at most the side's total. -/
theorem le_sum_of_level {ls : List Limit} {l : Limit} (hl : l ∈ ls) (g : Limit → Nat) :
    g l ≤ (ls.map g).sum := by
  have := List.sum_map_erase g hl; omega

/-! ## §3 Rewriting one level -/

section Level

variable {side : Side} {m m' : UIDOrderMap} {t : LimitTree}

/-- With no repeated uid, a map that changes only a uid of level `l` keeps the other levels
consistent. -/
theorem TreeOk.others (h : TreeOk side m t) (hnd : t.queued.Nodup) {l : Limit}
    (hl : l ∈ t.limits) {u : Nat} (hu : u ∈ l.orders)
    (hm : ∀ v ∈ t.queued, v ≠ u → m'.lookup v = m.lookup v) :
    ∀ x ∈ t.limits, x.key ≠ l.key → LevelOk side m' x := fun x hx hk =>
  (h.levels x hx).frame fun v hv => hm v (mem_queued.mpr ⟨x, hx, hv⟩) fun e =>
    not_mem_of_queued_nodup hnd hl hx (fun e' => hk (e' ▸ rfl)) hu (e ▸ hv)

/-- Rewriting the level at `k` keeps a side consistent when the new level is consistent and keeps
its key, the other levels stay consistent, and the side's totals move by the level's. -/
theorem TreeOk.updateLevel (h : TreeOk side m t) {l : Limit} (hl : l ∈ t.limits) {k : Nat}
    (hk : l.key = k) (f : Limit → Limit) (hf : ∀ x, x.key = k → (f x).key = k)
    (hlev : LevelOk side m' (f l)) (hothers : ∀ x ∈ t.limits, x.key ≠ k → LevelOk side m' x)
    {count volume : Nat} (hc : count + l.count = t.count + (f l).count)
    (hv : volume + l.volume = t.volume + (f l).volume) :
    TreeOk side m' { t with limits := updateLimit k f t.limits, count := count, volume := volume } := by
  subst hk
  refine ⟨h.sorted.updateLimit hf, fun x hx => ?_, ?_, ?_, ?_⟩
  · obtain ⟨y, hy, hxy⟩ := mem_updateLimit hx
    split at hxy
    case isTrue hyk => rw [hxy, h.sorted.eq_of_key hy hl hyk]; exact hlev
    case isFalse hyk => exact hxy ▸ hothers y hy hyk
  · exact h.best.trans (updateLimit_head_key _ f hf _).symm
  · have := sum_updateLimit h.sorted hl f (·.count); have := h.count; dsimp only at *; omega
  · have := sum_updateLimit h.sorted hl f (·.volume); have := h.volume; dsimp only at *; omega

/-- Erasing the level `l` keeps a side consistent when the other levels stay consistent and the
side's totals drop by the level's; `best` moves to the new head when it named `l`. -/
theorem TreeOk.eraseLevel (h : TreeOk side m t) {l : Limit} (hl : l ∈ t.limits)
    (hothers : ∀ x ∈ t.limits, x.key ≠ l.key → LevelOk side m' x) {count volume : Nat}
    (hc : count + l.count = t.count) (hv : volume + l.volume = t.volume) :
    TreeOk side m' ⟨eraseLimit l.key t.limits,
      if t.best = some l.key then (eraseLimit l.key t.limits).head?.map (·.key) else t.best,
      count, volume⟩ := by
  obtain ⟨pre, post, hsplit, hne⟩ := h.sorted.split hl
  refine ⟨h.sorted.sublist (List.filter_sublist _), fun x hx => ?_, ?_, ?_, ?_⟩
  · obtain ⟨hx, hxk⟩ := List.mem_filter.mp hx
    exact hothers x hx (by simpa using hxk)
  · split
    · rfl
    case isFalse hb =>
      rw [h.best, hsplit] at hb ⊢
      rw [eraseLimit_split rfl hne]
      cases pre with
      | nil => simp at hb
      | cons x xs => rfl
  · have := sum_eraseLimit h.sorted hl (·.count); have := h.count; dsimp only at *; omega
  · have := sum_eraseLimit h.sorted hl (·.volume); have := h.volume; dsimp only at *; omega

/-- The uids queued after rewriting the level at `l.key`. -/
theorem queued_updateLimit (h : TreeOk side m t) {l : Limit} (hl : l ∈ t.limits)
    (f : Limit → Limit) : ∃ pre post, t.queued = pre ++ l.orders ++ post ∧
      (updateLimit l.key f t.limits).flatMap (·.orders) = pre ++ (f l).orders ++ post := by
  obtain ⟨pre, post, hs, hne⟩ := h.sorted.split hl
  exact ⟨_, _, queued_split hs, by simp [hs, updateLimit_split f rfl hne]⟩

end Level

/-! ## §4 Resting an order -/

section Insert

variable {side : Side} {m m' : UIDOrderMap} {t : LimitTree}

/-- Resting `o` keeps a side consistent, given a map that holds `o` under its uid with its back
pointer set and agrees with the old map on the queued orders. The uid joins the queue, and the
only new key is the order's price. -/
theorem TreeOk.insert (h : TreeOk side m t) {o : Order} (hs : o.side = side)
    (ho : m'.lookup o.uid = some { o with limit := some o.price })
    (hm : ∀ u ∈ t.queued, m'.lookup u = m.lookup u) :
    TreeOk side m' (t.insert side o) ∧ (t.insert side o).queued.Perm (o.uid :: t.queued) ∧
      (t.insert side o).keys ⊆ o.price :: t.keys := by
  have hf := h.frame hm
  have hnew : Resting side m' o.price o.uid := ⟨_, ho, rfl, hs, rfl, rfl⟩
  have hqo : quantityOf m' o.uid = o.quantity := by simp [quantityOf, ho]
  unfold LimitTree.insert
  split
  case h_1 l hfind =>
    obtain ⟨hl, hk⟩ := find_some hfind
    have hlev := hf.levels l hl
    have hla : LevelOk side m' (l.append o.uid o.quantity) :=
      ⟨by simp [Limit.append], by simp [Limit.append, hlev.count],
        by simp [Limit.append, hlev.volume, hqo], fun u hu => by
          rcases List.mem_append.mp hu with hu | hu
          · exact hlev.resting u hu
          · rw [List.eq_of_mem_singleton hu]; exact hk ▸ hnew⟩
    obtain ⟨pre, post, hq, hq'⟩ := queued_updateLimit h hl (·.append o.uid o.quantity)
    rw [hk] at hq'
    refine ⟨h.updateLevel hl hk (·.append o.uid o.quantity) (fun _ => id) hla
      (fun x hx _ => hf.levels x hx) (by simp [Limit.append]; omega)
      (by simp [Limit.append]; omega), ?_, ?_⟩
    · show List.Perm ((updateLimit o.price _ t.limits).flatMap (·.orders)) (o.uid :: t.queued)
      rw [hq', hq]
      simpa only [Limit.append, List.append_assoc, List.singleton_append] using
        @List.perm_middle _ o.uid (pre ++ l.orders) post
    · show (updateLimit o.price _ t.limits).map _ ⊆ _
      rw [updateLimit_keys o.price (·.append o.uid o.quantity) fun _ => id]
      exact List.subset_cons_self _ _
  case h_2 hfind =>
    have hk := find_eq_none.mp hfind
    have hperm := insertLimit_perm side (Limit.ofOrder o) t.limits
    refine ⟨⟨h.sorted.insertLimit hk, fun x hx => ?_, ?_, ?_, ?_⟩, ?_, ?_⟩
    · rcases List.mem_cons.mp (hperm.mem_iff.mp hx) with rfl | hx
      · exact ⟨by simp [Limit.ofOrder], rfl, by simp [Limit.ofOrder, hqo],
          by simpa [Limit.ofOrder] using hnew⟩
      · exact hf.levels x hx
    · rw [insertLimit_head_key, h.best]; rfl
    · rw [(hperm.map _).sum_eq]; simp [h.count, Limit.ofOrder]; omega
    · rw [(hperm.map _).sum_eq]; simp [h.volume, Limit.ofOrder]; omega
    · exact (hperm.flatMap_right _).trans (by simp [Limit.ofOrder, queued])
    · exact (hperm.map _).subset.trans (by simp [Limit.ofOrder, keys])

end Insert

/-! ## §5 Removing an order and reducing one -/

section Remove

variable {side : Side} {m m' : UIDOrderMap} {t : LimitTree}

/-- A queued uid rests in its level under the map's record of it. -/
theorem TreeOk.resting_of_queued (h : TreeOk side m t) {u : Nat} {o : Order}
    (ho : m.lookup u = some o) {l : Limit} (hl : l ∈ t.limits) (hu : u ∈ l.orders) :
    o.uid = u ∧ o.side = side ∧ o.price = l.key ∧ o.limit = some l.key := by
  obtain ⟨o0, h0, hrest⟩ := (h.levels l hl).resting u hu
  cases ho.symm.trans h0
  exact hrest

/-- Splicing the map's record `o` out of a side keeps it consistent under a map that agrees off
`o.uid`. Exactly `o.uid` leaves the queue, and no key is added. -/
theorem TreeOk.remove (h : TreeOk side m t) (hnd : t.queued.Nodup) {o : Order}
    (ho : m.lookup o.uid = some o) (hq : o.uid ∈ t.queued)
    (hm : ∀ u ∈ t.queued, u ≠ o.uid → m'.lookup u = m.lookup u) :
    TreeOk side m' (t.remove o) ∧ (t.remove o).queued = t.queued.erase o.uid ∧
      (t.remove o).keys ⊆ t.keys := by
  obtain ⟨l, hl, hul⟩ := mem_queued.mp hq
  have hlev := h.levels l hl
  have hlim := (h.resting_of_queued ho hl hul).2.2.2
  have hothers := h.others hnd hl hul hm
  have hfind : t.find l.key = some l := (find_eq_some h.sorted).mpr ⟨hl, rfl⟩
  obtain ⟨pre, post, hsplit, hne⟩ := h.sorted.split hl
  have hndq : (pre.flatMap (·.orders) ++ l.orders ++ post.flatMap (·.orders)).Nodup :=
    queued_split hsplit ▸ hnd
  have hpre : o.uid ∉ pre.flatMap (·.orders) := fun hp =>
    List.disjoint_left.mp (List.nodup_append.mp hndq.of_append_left).2.2 hp hul
  have hnl := nodup_of_queued_nodup hnd hl
  have hml : ∀ v ∈ l.orders, v ≠ o.uid → m'.lookup v = m.lookup v :=
    fun v hv => hm v (mem_queued.mpr ⟨l, hl, hv⟩)
  -- the level's volume is the order's quantity and the rest of its queue's
  have hsum := sum_quantityOf_erase hul hnl hml
  rw [quantityOf_of_lookup ho, ← hlev.volume] at hsum
  have hlen : 0 < l.orders.length := List.length_pos.mpr hlev.nonempty
  have htc := le_sum_of_level hl (·.count)
  have htv := le_sum_of_level hl (·.volume)
  have hc := h.count
  have hv := h.volume
  simp only [LimitTree.remove, hlim, hfind]
  split
  case isTrue hz =>
    have hone := hlev.orders_eq_singleton hul (by simp only [Limit.splice] at hz; omega)
    rw [hone] at hsum
    have hc1 : l.count = 1 := by rw [hlev.count, hone]; rfl
    have hvq : o.quantity = l.volume := by simpa using hsum
    refine ⟨h.eraseLevel hl hothers ?_ ?_, ?_, ?_⟩
    · omega
    · omega
    · rw [queued_split hsplit, hone, List.erase_append_left _ (by simp),
        List.erase_append_right _ hpre]
      simp [queued, hsplit, eraseLimit_split rfl hne]
    · exact List.map_subset _ (List.filter_sublist _).subset
  case isFalse hz =>
    have h2 : 2 ≤ l.orders.length := by simp [Limit.splice, hlev.count] at hz; omega
    have hl' : LevelOk side m' (l.splice o.uid o.quantity) :=
      ⟨List.ne_nil_of_length_pos (by simp only [Limit.splice, List.length_erase_of_mem hul]; omega),
        by simp [Limit.splice, hlev.count, List.length_erase_of_mem hul],
        by simp only [Limit.splice]; omega,
        fun v hv => by
          obtain ⟨hvu, hv⟩ := hnl.mem_erase_iff.mp hv
          simpa only [Resting, hml v hv hvu] using hlev.resting v hv⟩
    refine ⟨h.updateLevel hl rfl (fun _ => l.splice o.uid o.quantity) (fun _ _ => rfl) hl'
      hothers ?_ ?_, ?_, ?_⟩
    · have := hlev.count; simp only [Limit.splice]; omega
    · simp only [Limit.splice]; omega
    · rw [queued_split hsplit, List.erase_append_left _ (List.mem_append_right _ hul),
        List.erase_append_right _ hpre]
      simp [queued, hsplit, updateLimit_split _ rfl hne, Limit.splice]
    · show (updateLimit l.key _ t.limits).map _ ⊆ _
      rw [updateLimit_keys l.key (fun _ => l.splice o.uid o.quantity) fun _ _ => rfl]
      exact List.Subset.refl _

@[simp] theorem queued_reduceVolume (t : LimitTree) (key q : Nat) :
    (t.reduceVolume key q).queued = t.queued := by
  simp only [queued, LimitTree.reduceVolume, updateLimit, List.flatMap_map]
  exact List.flatMap_congr fun l _ => by split <;> rfl

@[simp] theorem keys_reduceVolume (t : LimitTree) (key q : Nat) :
    (t.reduceVolume key q).keys = t.keys :=
  updateLimit_keys key (fun l => { l with volume := l.volume - q }) (fun _ => id) t.limits

/-- Taking `q` off the map's record `o` of a queued uid, and off its level's and side's volume,
keeps a side consistent. -/
theorem TreeOk.reduceVolume (h : TreeOk side m t) (hnd : t.queued.Nodup) {u : Nat} {o : Order}
    (ho : m.lookup u = some o) (hq : u ∈ t.queued) {key q : Nat} (hk : o.limit = some key)
    (hle : q ≤ o.quantity) (hu : m'.lookup u = some { o with quantity := o.quantity - q })
    (hm : ∀ v ∈ t.queued, v ≠ u → m'.lookup v = m.lookup v) :
    TreeOk side m' (t.reduceVolume key q) := by
  obtain ⟨l, hl, hul⟩ := mem_queued.mp hq
  have hlev := h.levels l hl
  obtain ⟨-, hos, hop, hol⟩ := h.resting_of_queued ho hl hul
  have hkey : l.key = key := Option.some_injective _ (hol.symm.trans hk)
  have hml : ∀ v ∈ l.orders, v ≠ u → m'.lookup v = m.lookup v :=
    fun v hv => hm v (mem_queued.mpr ⟨l, hl, hv⟩)
  have hsum := sum_quantityOf_update hul (nodup_of_queued_nodup hnd hl) hml
  rw [quantityOf_of_lookup ho, quantityOf_of_lookup hu, ← hlev.volume] at hsum
  have htv := le_sum_of_level hl (·.volume)
  have hv := h.volume
  have hothers := h.others hnd hl hul hm
  refine h.updateLevel hl hkey (fun l => { l with volume := l.volume - q }) (fun _ => id)
    ⟨hlev.nonempty, hlev.count, ?_, fun v hv => ?_⟩ (fun x hx hxk => hothers x hx (hkey ▸ hxk))
    rfl ?_
  · dsimp only at hsum ⊢; omega
  · by_cases hvu : v = u
    · subst hvu; exact ⟨_, hu, (h.resting_of_queued ho hl hul).1, hos, hop, hol⟩
    · simpa only [Resting, hml v hv hvu] using hlev.resting v hv
  · dsimp only at hsum htv ⊢; omega

end Remove

/-! ## §6 Both sides -/

theorem Side.eq_or_eq_not (s side : Side) : s = side ∨ s = side.not := by
  cases s <;> cases side <;> simp

/-- The queues of both sides, listed from either side. -/
theorem queued_both_perm (trees : Side → LimitTree) (side : Side) (extra : List Nat) :
    ((trees side).queued ++ (trees side.not).queued ++ extra).Perm
      ((trees .sell).queued ++ (trees .buy).queued ++ extra) := by
  cases side
  · rfl
  · exact List.perm_append_comm.append_right _

/-- The best key of a consistent side is one of its keys and beats every other one. -/
theorem TreeOk.best_spec {side : Side} {m : UIDOrderMap} {t : LimitTree} (h : TreeOk side m t)
    {key : Nat} (hb : t.best = some key) :
    key ∈ t.keys ∧ ∀ k ∈ t.keys, k = key ∨ better side key k := by
  rw [h.best] at hb
  cases hls : t.limits with
  | nil => simp [hls] at hb
  | cons x xs =>
    simp only [hls, List.head?_cons, Option.map_some', Option.some.injEq] at hb
    have hs := h.sorted; rw [hls] at hs
    subst hb
    refine ⟨by simp [keys, hls], fun k hk => ?_⟩
    simp only [keys, hls, List.map_cons, List.mem_cons, List.mem_map] at hk
    rcases hk with rfl | ⟨z, hz, rfl⟩
    · exact .inl rfl
    · exact .inr (hs.head_better z hz)

/-- A better key than the best level of a consistent side beats each of its levels. -/
theorem TreeOk.better_keys {side : Side} {m : UIDOrderMap} {t : LimitTree} (h : TreeOk side m t)
    {key p : Nat} (hb : t.best = some key) (hp : better side p key) : ∀ y ∈ t.keys, better side p y :=
  fun y hy => ((h.best_spec hb).2 y hy).elim (fun he => he ▸ hp) (better_trans hp)

/-- A side counts its queue. -/
theorem TreeOk.count_eq_length {side : Side} {m : UIDOrderMap} {t : LimitTree}
    (h : TreeOk side m t) : t.count = t.queued.length := by
  rw [h.count, queued, List.length_flatMap]
  exact congrArg List.sum (List.map_congr_left fun l hl => (h.levels l hl).count)

namespace BookOk

variable {extra : List Nat} {e : Engine}

theorem nodup (h : BookOk extra e) : (e.sells.queued ++ e.buys.queued ++ extra).Nodup :=
  h.keys.nodup_iff.mp e.orders.nodupKeys

theorem keys_side (h : BookOk extra e) (side : Side) :
    e.orders.keys.Perm ((e.trees side).queued ++ (e.trees side.not).queued ++ extra) :=
  h.keys.trans (queued_both_perm e.trees side extra).symm

theorem nodup_side (h : BookOk extra e) (side : Side) :
    ((e.trees side).queued ++ (e.trees side.not).queued ++ extra).Nodup :=
  (h.keys_side side).nodup_iff.mp e.orders.nodupKeys

theorem queued_nodup (h : BookOk extra e) (side : Side) : (e.trees side).queued.Nodup :=
  (h.nodup_side side).of_append_left.of_append_left

theorem mem_of_queued (h : BookOk extra e) {side : Side} {u : Nat}
    (hu : u ∈ (e.trees side).queued) : u ∈ e.orders :=
  AList.mem_keys.mpr ((h.keys_side side).mem_iff.mpr (by simp [hu]))

/-- A uid queued on one side is neither on the other side nor among the extra uids. -/
theorem not_mem_other (h : BookOk extra e) {side : Side} {u : Nat}
    (hu : u ∈ (e.trees side).queued) : u ∉ (e.trees side.not).queued ∧ u ∉ extra := by
  have hnd := h.nodup_side side
  rw [List.append_assoc, List.nodup_append] at hnd
  exact ⟨fun h' => hnd.2.2 hu (List.mem_append_left _ h'),
    fun h' => hnd.2.2 hu (List.mem_append_right _ h')⟩

/-- The extra uids are queued on neither side. -/
theorem not_queued_of_extra (h : BookOk extra e) {u : Nat} (hu : u ∈ extra) (side : Side) :
    u ∉ (e.trees side).queued :=
  fun hq => (h.not_mem_other hq).2 hu

/-- **One side's step.** A book whose side `side` and map change stays consistent when the new side
is consistent under the new map, the other side's orders keep their records, the map holds the
queued uids and `extra'`, and each new key is an old one or beats every opposite level. -/
theorem update (h : BookOk extra e) {e' : Engine} {side : Side} {extra' : List Nat}
    (hother : e'.trees side.not = e.trees side.not)
    (hside : TreeOk side e'.orders (e'.trees side))
    (hframe : ∀ u ∈ (e.trees side.not).queued, e'.orders.lookup u = e.orders.lookup u)
    (hkeys : e'.orders.keys.Perm ((e'.trees side).queued ++ (e.trees side.not).queued ++ extra'))
    (hnew : ∀ p ∈ (e'.trees side).keys,
      p ∈ (e.trees side).keys ∨ ∀ y ∈ (e.trees side.not).keys, better side.not p y) :
    BookOk extra' e' := by
  refine ⟨fun s => ?_, ?_, ?_⟩
  · rcases Side.eq_or_eq_not s side with rfl | rfl
    · exact hside
    · exact hother ▸ (h.trees side.not).frame hframe
  · exact (hother ▸ hkeys).trans (queued_both_perm e'.trees side extra')
  · have hu := h.uncrossed
    intro b hb s hs
    cases side
    · rcases hnew s hs with hs | hs
      · exact hu b (hother ▸ hb) s hs
      · exact hs b (hother ▸ hb)
    · rcases hnew b hb with hb | hb
      · exact hu b hb s (hother ▸ hs)
      · exact hb s (hother ▸ hs)

/-- A book whose map alone changes stays consistent when the queued orders keep their records and
the map holds the queued uids and `extra'`. -/
theorem reorders (h : BookOk extra e) {e' : Engine} (htrees : e'.trees = e.trees)
    (hframe : ∀ side, ∀ u ∈ (e.trees side).queued, e'.orders.lookup u = e.orders.lookup u)
    (hkeys : e'.orders.keys.Perm (e.sells.queued ++ e.buys.queued ++ extra')) :
    BookOk extra' e' :=
  ⟨fun s => htrees ▸ (h.trees s).frame (hframe s),
    by simpa only [Engine.sells, Engine.buys, htrees] using hkeys, htrees ▸ h.uncrossed⟩

end BookOk

end CboeEmulator.OrderEntry.LOB

import CboeEmulator.OrderEntry.Invariant

/-!
# Order-Entry Book: the Matching Loop

`LimitTree<side>::market` runs one round per resting order it trades against. This file says once
what a round can do (`marketStep_eq_some`), proves that each kind of round keeps the book
consistent, and lifts both to whole runs of the loop:

- `marketLoop_invariant`: what one round keeps, every run keeps;
- `BookOk.marketLoop_exit`: a budget of one round per queued order, plus one, is never exhausted,
  so the loop stops because the taker is filled or no level matches it, never for want of fuel;
- `BookOk.marketStep_eq_none`: when the loop stops on a consistent book, the taker is filled or no
  level of the tree matches its price.
-/

namespace CboeEmulator.OrderEntry.LOB

open LimitTree

section Equations

variable {side : Side} {e : Engine} {o m : Order} {uid key : Nat}

@[simp] theorem fillMaker_trees :
    (fillMaker side e o m).1.trees = Function.update e.trees side ((e.trees side).remove m) := rfl
@[simp] theorem fillMaker_orders : (fillMaker side e o m).1.orders = e.orders.erase m.uid := rfl
@[simp] theorem fillMaker_sequence : (fillMaker side e o m).1.sequence = e.sequence := rfl
@[simp] theorem fillMaker_taker :
    (fillMaker side e o m).2 = { o with quantity := o.quantity - m.quantity } := rfl
@[simp] theorem fillMaker_accounts : (fillMaker side e o m).1.accounts =
    ((e.call (.limitFill m o)).call (takerCallback m o)).accounts := rfl
@[simp] theorem fillMaker_fills :
    (fillMaker side e o m).1.fills = e.fills ++ [.limitFill m o, takerCallback m o] := by
  simp [fillMaker]

@[simp] theorem fillTaker_trees : (fillTaker side e o uid key m).1.trees =
    Function.update e.trees side ((e.trees side).reduceVolume key o.quantity) := rfl
@[simp] theorem fillTaker_orders : (fillTaker side e o uid key m).1.orders =
    e.orders.insert uid { m with quantity := m.quantity - o.quantity } := rfl
@[simp] theorem fillTaker_sequence : (fillTaker side e o uid key m).1.sequence = e.sequence := rfl
@[simp] theorem fillTaker_taker : (fillTaker side e o uid key m).2 = { o with quantity := 0 } := rfl
@[simp] theorem fillTaker_accounts : (fillTaker side e o uid key m).1.accounts =
    ((e.call (.limitPartial { m with quantity := m.quantity - o.quantity } o)).call
      (.marketFill { m with quantity := m.quantity - o.quantity } o)).accounts := rfl
@[simp] theorem fillTaker_fills : (fillTaker side e o uid key m).1.fills =
    e.fills ++ [.limitPartial { m with quantity := m.quantity - o.quantity } o,
      .marketFill { m with quantity := m.quantity - o.quantity } o] := by
  simp [fillTaker]

end Equations

/-! ## §1 What one round can do -/

section Step

variable {side : Side} {e e' : Engine} {o o' : Order}

/-- **Inversion of a round.** A round trades the taker against the head `m` of the best level,
when the taker has quantity left and its price matches that level: `m` is filled entirely when
it has no more than the taker wants, and the taker otherwise. -/
theorem marketStep_eq_some (h : marketStep side e o = some (e', o')) :
    ∃ key l uid m, (e.trees side).best = some key ∧ o.quantity ≠ 0 ∧ canMatch side key o.price ∧
      (e.trees side).find key = some l ∧ l.orders.head? = some uid ∧ e.orders.lookup uid = some m ∧
      (e', o') = if m.quantity ≤ o.quantity then fillMaker side e o m
        else fillTaker side e o uid key m := by
  unfold marketStep at h
  split at h
  · cases h
  case h_2 key hb =>
    split at h
    · cases h
    case isFalse hg =>
      obtain ⟨hq, hc⟩ := not_or.mp hg
      split at h
      · cases h
      case h_2 l hl =>
        split at h
        · cases h
        case h_2 uid hu =>
          split at h
          · cases h
          case h_2 m hm => exact ⟨key, l, uid, m, hb, hq, not_not.mp hc, hl, hu, hm, (Option.some.inj h).symm⟩

/-- A round never starts once the taker is filled. -/
theorem marketStep_of_quantity_eq_zero (h : o.quantity = 0) : marketStep side e o = none := by
  unfold marketStep
  split
  · rfl
  · simp [h]

/-- A round changes the taker's quantity and nothing else of it, and never raises it. -/
theorem marketStep_taker (h : marketStep side e o = some (e', o')) :
    o' = { o with quantity := o'.quantity } ∧ o'.quantity ≤ o.quantity := by
  obtain ⟨_, _, _, m, _, _, _, _, _, _, hr⟩ := marketStep_eq_some h
  split at hr <;> cases hr
  · exact ⟨rfl, Nat.sub_le _ _⟩
  · exact ⟨rfl, Nat.zero_le _⟩

end Step

/-! ## §2 Each round keeps the book consistent -/

/-- The number of orders in a tree is the length of its queue. -/
theorem LimitTree.size_eq_length (t : LimitTree) : t.size = t.queued.length := by
  simp [LimitTree.size, queued, List.length_flatMap, Function.comp_def]

section Fill

variable {side : Side} {extra : List Nat} {e : Engine}

/-- The map's record of a queued uid is keyed by it and rests on its side, in a level of the tree
whose key is its price. -/
theorem BookOk.lookup_queued (h : BookOk extra e) {uid : Nat} {m : Order}
    (hq : uid ∈ (e.trees side).queued) (hm : e.orders.lookup uid = some m) :
    m.uid = uid ∧ m.side = side ∧
      ∃ l ∈ (e.trees side).limits, uid ∈ l.orders ∧ m.price = l.key ∧ m.limit = some l.key := by
  obtain ⟨l, hl, hu⟩ := mem_queued.mp hq
  obtain ⟨h1, h2, h3, h4⟩ := (h.trees side).resting_of_queued hm hl hu
  exact ⟨h1, h2, l, hl, hu, h3, h4⟩

/-- Splicing the record `o` of a queued uid out of its side and erasing the uid from the map keeps
the book consistent; the uid leaves the queue and the map. -/
theorem BookOk.remove (h : BookOk extra e) {uid : Nat} {o : Order}
    (hq : uid ∈ (e.trees side).queued) (hm : e.orders.lookup uid = some o) {e' : Engine}
    (htrees : e'.trees = Function.update e.trees side ((e.trees side).remove o))
    (horders : e'.orders = e.orders.erase uid) :
    BookOk extra e' ∧ (e'.trees side).queued = (e.trees side).queued.erase uid ∧
      e'.orders.keys ⊆ e.orders.keys := by
  obtain ⟨rfl, -⟩ := h.lookup_queued hq hm
  obtain ⟨ht, hQ, hK⟩ := (h.trees side).remove (h.queued_nodup side) hm hq
    fun u _ hne => AList.lookup_erase_ne hne
  have hkeys := (h.keys_side side).erase o.uid
  rw [List.erase_append_left _ (List.mem_append_left _ hq), List.erase_append_left _ hq, ← hQ]
    at hkeys
  refine ⟨h.update (by simp [htrees]) (by simpa [htrees, horders] using ht) (fun u hu => ?_)
      (by simpa [htrees, horders, AList.keys_erase] using hkeys)
      (fun p hp => .inl (hK (by simpa [htrees] using hp))), by simpa [htrees] using hQ, ?_⟩
  · rw [horders]; exact AList.lookup_erase_ne fun he => (h.not_mem_other hq).1 (he ▸ hu)
  · simpa [horders, AList.keys_erase] using List.erase_subset _ _

/-- Filling the taker `o` from a larger maker `m`, queued under `uid` in the level at `key`, keeps
the book consistent; the queues and the map's uids stay. -/
theorem BookOk.fillTaker (h : BookOk extra e) {key uid : Nat} {l : Limit} {m : Order}
    (hl : (e.trees side).find key = some l) (hu : uid ∈ l.orders)
    (hm : e.orders.lookup uid = some m) {o : Order} (hle : o.quantity ≤ m.quantity) :
    BookOk extra (LimitTree.fillTaker side e o uid key m).1 ∧
      ((LimitTree.fillTaker side e o uid key m).1.trees side).queued = (e.trees side).queued ∧
      (LimitTree.fillTaker side e o uid key m).1.orders.keys.Perm e.orders.keys := by
  obtain ⟨hlm, hlk⟩ := find_some hl
  have hq : uid ∈ (e.trees side).queued := mem_queued.mpr ⟨l, hlm, hu⟩
  have hlim := ((h.trees side).resting_of_queued hm hlm hu).2.2.2
  have ht := (h.trees side).reduceVolume (h.queued_nodup side) hm hq (hlk ▸ hlim) hle
    (AList.lookup_insert _) fun v _ hne => AList.lookup_insert_ne hne
  have hK : (LimitTree.fillTaker side e o uid key m).1.orders.keys.Perm e.orders.keys := by
    rw [fillTaker_orders, AList.keys_insert]
    exact (List.perm_cons_erase (AList.mem_keys.mp (h.mem_of_queued hq))).symm
  refine ⟨h.update (by simp) (by simpa using ht) (fun u hu' => AList.lookup_insert_ne fun e =>
      (h.not_mem_other hq).1 (e ▸ hu')) (by simpa using hK.trans (h.keys_side side))
      (fun p hp => .inl (by simpa using hp)), by simp, hK⟩

end Fill

section Round

variable {side : Side} {extra : List Nat} {e e' : Engine} {o o' : Order}

/-- A bound on the rounds the loop can still make: one per queued order, and one more while the
taker has quantity left. -/
def roundBound (side : Side) (e : Engine) (o : Order) : Nat :=
  (e.trees side).size + if o.quantity = 0 then 0 else 1

/-- **A round keeps the book consistent**, adds no uid to the map, and lowers the bound on the
rounds left. -/
theorem BookOk.marketStep (h : BookOk extra e) (hs : LimitTree.marketStep side e o = some (e', o')) :
    BookOk extra e' ∧ e'.orders.keys ⊆ e.orders.keys ∧ roundBound side e' o' < roundBound side e o := by
  obtain ⟨key, l, uid, m, -, hq0, -, hl, hu, hm, hr⟩ := marketStep_eq_some hs
  have hul : uid ∈ l.orders := List.mem_of_mem_head? hu
  have hq : uid ∈ (e.trees side).queued := mem_queued.mpr ⟨l, (find_some hl).1, hul⟩
  have hlen := List.length_pos_of_mem hq
  simp only [roundBound, LimitTree.size_eq_length, hq0, if_false]
  split at hr
  case isTrue hle =>
    obtain ⟨rfl, rfl⟩ := Prod.ext_iff.mp hr
    obtain ⟨rfl, -⟩ := h.lookup_queued hq hm
    obtain ⟨hb, hQ, hK⟩ :=
      h.remove hq hm (show (LimitTree.fillMaker side e o m).1.trees = _ from rfl) rfl
    refine ⟨hb, hK, ?_⟩
    rw [hQ, List.length_erase_of_mem hq]
    split <;> omega
  case isFalse hlt =>
    obtain ⟨rfl, rfl⟩ := Prod.ext_iff.mp hr
    obtain ⟨hb, hQ, hK⟩ := h.fillTaker hl hul hm (Nat.le_of_not_le hlt)
    exact ⟨hb, hK.subset, by simp [hQ]⟩

/-- When no round can start on a consistent book, the taker is filled or no level matches it. -/
theorem BookOk.marketStep_eq_none (h : BookOk extra e) (hs : LimitTree.marketStep side e o = none) :
    o.quantity = 0 ∨ ∀ key, (e.trees side).best = some key → ¬ canMatch side key o.price := by
  refine or_iff_not_imp_left.mpr fun hq key hb hc => ?_
  have ht := h.trees side
  obtain ⟨l, hl, hlk⟩ : ∃ l ∈ (e.trees side).limits, l.key = key := by
    have hb' := ht.best ▸ hb
    cases hls : (e.trees side).limits with
    | nil => simp [hls] at hb'
    | cons x xs => simp only [hls, List.head?_cons, Option.map_some', Option.some.injEq] at hb'
                   exact ⟨x, by simp [hls], hb'⟩
  have hfind := (find_eq_some ht.sorted).mpr ⟨hl, hlk⟩
  obtain ⟨u, us, hus⟩ := List.exists_cons_of_ne_nil (ht.levels l hl).nonempty
  obtain ⟨m, hm⟩ := Option.isSome_iff_exists.mp (AList.lookup_isSome.mpr
    (h.mem_of_queued (mem_queued.mpr ⟨l, hl, hus ▸ List.mem_cons_self _ _⟩)))
  simp [LimitTree.marketStep, hb, hq, hc, hfind, hus, hm] at hs

/-- A round erases records from the map or lowers their quantity; it rewrites nothing else of
them and adds none. -/
theorem marketStep_lookup (hs : LimitTree.marketStep side e o = some (e', o')) {u : Nat}
    {m' : Order} (hu : e'.orders.lookup u = some m') :
    ∃ m, e.orders.lookup u = some m ∧ m' = { m with quantity := m'.quantity } := by
  obtain ⟨_, _, uid, m, _, _, _, _, _, hm, hr⟩ := marketStep_eq_some hs
  split at hr <;> obtain ⟨rfl, -⟩ := Prod.ext_iff.mp hr
  · by_cases hum : u = m.uid
    · rw [hum, fillMaker_orders, AList.lookup_erase] at hu; cases hu
    · rw [fillMaker_orders, AList.lookup_erase_ne hum] at hu; exact ⟨m', hu, rfl⟩
  · by_cases hum : u = uid
    · subst hum
      rw [fillTaker_orders, AList.lookup_insert, Option.some.injEq] at hu
      exact ⟨m, hm, hu ▸ rfl⟩
    · rw [fillTaker_orders, AList.lookup_insert_ne hum] at hu; exact ⟨m', hu, rfl⟩

/-- A level that does not match the price `p` is beaten by it. -/
theorem better_of_not_canMatch {key p : Nat} (h : ¬ canMatch side key p) : better side p key :=
  not_not.mp (not_or.mp h).2

/-- A price that beats the best level of a consistent side beats every level of it. -/
theorem TreeOk.better_all {m : UIDOrderMap} {t : LimitTree} (h : TreeOk side m t) {p : Nat}
    (hb : ∀ key, t.best = some key → better side p key) : ∀ y ∈ t.keys, better side p y := by
  cases hbest : t.best with
  | none =>
    have : t.limits = [] := by simpa [hbest] using h.best.symm
    simp [keys, this]
  | some key => exact h.better_keys hbest (hb key hbest)

/-- A round leaves the uid counter alone. -/
theorem marketStep_sequence (hs : LimitTree.marketStep side e o = some (e', o')) :
    e'.sequence = e.sequence := by
  obtain ⟨_, _, _, _, _, _, _, _, _, _, hr⟩ := marketStep_eq_some hs
  split at hr <;> obtain ⟨rfl, -⟩ := Prod.ext_iff.mp hr <;> rfl

end Round

/-! ## §3 Whole runs of the loop -/

section Loop

variable {side : Side} {extra : List Nat}

/-- **What one round keeps, the whole loop keeps.** -/
theorem marketLoop_invariant {P : Engine → Order → Prop}
    (hstep : ∀ e o e' o', P e o → LimitTree.marketStep side e o = some (e', o') → P e' o') :
    ∀ fuel e o, P e o → P (marketLoop side fuel e o).1 (marketLoop side fuel e o).2
  | 0, _, _, hP => hP
  | fuel + 1, e, o, hP => by
    unfold marketLoop
    split
    · exact hP
    case h_2 e' o' hs => exact marketLoop_invariant hstep fuel e' o' (hstep e o e' o' hP hs)

/-- On a consistent book a budget of at least `roundBound` rounds is never exhausted: the loop
stops where no further round can start. -/
theorem BookOk.marketLoop_exit {fuel : Nat} {e : Engine} {o : Order} (h : BookOk extra e)
    (hf : roundBound side e o ≤ fuel) :
    LimitTree.marketStep side (marketLoop side fuel e o).1 (marketLoop side fuel e o).2 = none := by
  induction fuel generalizing e o with
  | zero =>
    have : o.quantity = 0 := by
      by_contra hq; simp only [roundBound, hq, if_false] at hf; omega
    exact marketStep_of_quantity_eq_zero this
  | succ fuel ih =>
    cases hs : LimitTree.marketStep side e o with
    | none => simp [marketLoop, hs]
    | some r =>
      obtain ⟨hb, -, hlt⟩ := h.marketStep hs
      simp only [marketLoop, hs]
      exact ih hb (by omega)

/-- **A run of the loop on a consistent book** keeps it consistent, adds no uid to the map,
leaves the uid counter alone, and changes only the taker's quantity, never raising it. -/
theorem BookOk.marketLoop {e : Engine} (h : BookOk extra e) (fuel : Nat) (o : Order) :
    BookOk extra (marketLoop side fuel e o).1 ∧
      (marketLoop side fuel e o).1.orders.keys ⊆ e.orders.keys ∧
      (marketLoop side fuel e o).1.sequence = e.sequence ∧
      (marketLoop side fuel e o).2 = { o with quantity := (marketLoop side fuel e o).2.quantity } ∧
      (marketLoop side fuel e o).2.quantity ≤ o.quantity := by
  refine marketLoop_invariant (P := fun e' o' => BookOk extra e' ∧ e'.orders.keys ⊆ e.orders.keys ∧
    e'.sequence = e.sequence ∧ o' = { o with quantity := o'.quantity } ∧ o'.quantity ≤ o.quantity)
    ?_ fuel e o ⟨h, List.Subset.refl _, rfl, rfl, le_rfl⟩
  rintro e₁ o₁ e₂ o₂ ⟨hb, hk, hseq, ho, hq⟩ hs
  obtain ⟨hb', hk', -⟩ := hb.marketStep hs
  obtain ⟨ho', hq'⟩ := marketStep_taker hs
  exact ⟨hb', hk'.trans hk, (marketStep_sequence hs).trans hseq, ho'.trans (by rw [ho]),
    hq'.trans hq⟩

/-- **The matching loop of `market` runs to completion** on a consistent book: it keeps the book
consistent, adds no uid to the map, leaves the counter, changes only the taker's quantity, and
stops only where no further round can start. -/
theorem BookOk.market {e : Engine} (h : BookOk extra e) (side : Side) (o : Order) :
    BookOk extra (market side e o).1 ∧ (market side e o).1.orders.keys ⊆ e.orders.keys ∧
      (market side e o).1.sequence = e.sequence ∧
      (market side e o).2 = { o with quantity := (market side e o).2.quantity } ∧
      (market side e o).2.quantity ≤ o.quantity ∧
      LimitTree.marketStep side (market side e o).1 (market side e o).2 = none :=
  ⟨(h.marketLoop _ o).1, (h.marketLoop _ o).2.1, (h.marketLoop _ o).2.2.1,
    (h.marketLoop _ o).2.2.2.1, (h.marketLoop _ o).2.2.2.2,
    h.marketLoop_exit (by unfold roundBound; split <;> omega)⟩

end Loop

end CboeEmulator.OrderEntry.LOB

import CboeEmulator.OrderEntry.WireBounds

/-!
# Order-Entry Server: The Reports of One Order

What a connection is told about one of its account's resting orders. The `SystemAccount`
overrides of the maker's callbacks, `limit_fill` and `limit_partial`, send a `TradeResponse` with
the maker's uid, its price, the quantity traded and the quantity it leaves; the taker's
overrides send order id 0 (`Responses`). So the reports that carry the uid of a resting order
are those of its fills as a maker, and nothing else.

This module follows one order `u` through every round of the matching loop, every call the
server makes and every event of a run. From any state in which `u` rests, to any later state of a
run along which the connection stays logged into `u`'s account, the connection hears the fills of
`u` in order, each at `u`'s price and side, each taking at most what `u` had left and reporting as
leaves quantity what it did not take; together they take exactly what `u` lost.

## Main definitions

- `Messages.Response.tradeOrderId`, `tradesOf`: the reports of one order among responses;
- `LOB.fillReport`, `LOB.CountsDown`: the report of one fill of an order, and fills counting an
  order's quantity down;
- `LOB.Reports`: from one book to another, what the logged callbacks report of one order;
- `Server.HearsFills`, `Server.Handles`: a connection hears the reports of the callbacks on an
  account, and it is that account's handler and no other's;
- `Server.LoggedIn`: the runs along which a connection stays logged into one account.

## Main results

- `LOB.marketStep_reports`, `LOB.Inv.apply_reports`, `LOB.Reachable.reports`: a round of the
  loop, a call, and every run of calls report the fills of a resting order as a count-down;
- `Server.step_hearsFills`: every event queues on a logged-in connection exactly the reports of
  the callbacks on its account;
- `Server.order_reports_complete`: the reports a connection hears of one of its orders count
  the order down, fill by fill, to what it has left.
-/

namespace CboeEmulator.OrderEntry

open Messages

/-! ## §1 The reports of one order -/

/-- The order id of a `TradeResponse`; no other response carries one. -/
def Messages.Response.tradeOrderId : Response → Option Nat
  | .tradeResponse orderId .. => some orderId
  | _ => none

/-- The trade reports among `rs` that carry order id `u`, in order. -/
def tradesOf (u : Nat) (rs : List Response) : List Response :=
  rs.filter fun r => r.tradeOrderId = some u

@[simp] theorem tradesOf_nil (u : Nat) : tradesOf u [] = [] := rfl

@[simp] theorem tradesOf_append (u : Nat) (rs rs' : List Response) :
    tradesOf u (rs ++ rs') = tradesOf u rs ++ tradesOf u rs' := List.filter_append ..

namespace LOB

open LimitTree LimitOrderBook

/-- The report of a fill of the resting order `m` that trades `x.1` and leaves `x.2`: its uid,
its price and its side. -/
def fillReport (m : Order) (x : Nat × Nat) : Response :=
  .tradeResponse m.uid m.price x.1 x.2 (ofLOBSide m.side)

@[simp] theorem fillReport_withQuantity (m : Order) (q : Nat) :
    fillReport { m with quantity := q } = fillReport m := rfl

/-- Fills `(quantity, leaves)` of an order that had `q` left and ends with `q'` left: each takes
at most what is left, and leaves what it did not take. -/
inductive CountsDown : Nat → Nat → List (Nat × Nat) → Prop
  | nil (q : Nat) : CountsDown q q []
  | cons {q q' x : Nat} {xs : List (Nat × Nat)} :
      x ≤ q → CountsDown (q - x) q' xs → CountsDown q q' ((x, q - x) :: xs)

theorem CountsDown.append {q q₁ q₂ : Nat} {xs ys : List (Nat × Nat)} (h₁ : CountsDown q q₁ xs)
    (h₂ : CountsDown q₁ q₂ ys) : CountsDown q q₂ (xs ++ ys) := by
  induction h₁ with
  | nil => exact h₂
  | cons hx _ ih => exact .cons hx (ih h₂)

/-- One fill that takes `x` of the `q` an order has. -/
theorem CountsDown.single {q x : Nat} (hx : x ≤ q) : CountsDown q (q - x) [(x, q - x)] :=
  .cons hx (.nil _)

/-! ## §2 One round of the matching loop -/

/-- From `e` to `e'` the book logged the callbacks `cs` after its fills. If order `u` rests in `e`
as `m`, the reports of `u` among them are fills of `m`, on `m`'s account, counting its quantity
down to what `e'` leaves of `u`; if `u` does not rest in `e`, they report nothing of `u`, and `u`
does not rest in `e'` either. -/
def Reports (u : Nat) (e e' : Engine) : Prop :=
  ∃ cs, e'.fills = e.fills ++ cs ∧
    match e.orders.lookup u with
    | none => tradesOf u (cs.map (·.tradeResponse)) = [] ∧ e'.orders.lookup u = none
    | some m => (∀ c ∈ cs, c.tradeResponse.tradeOrderId = some u → c.account = m.account) ∧
        ∃ steps q, tradesOf u (cs.map (·.tradeResponse)) = steps.map (fillReport m) ∧
          CountsDown m.quantity q steps ∧
          ∀ m', e'.orders.lookup u = some m' → m' = { m with quantity := q }

section Reports

variable {u : Nat} {e e₁ e₂ e' : Engine}

theorem Reports.refl (u : Nat) (e : Engine) : Reports u e e := by
  refine ⟨[], by simp, ?_⟩
  split
  · exact ⟨rfl, ‹_›⟩
  case h_2 m hm => exact ⟨by simp, [], m.quantity, rfl, .nil _, fun m' h => by rw [hm] at h; cases h; rfl⟩

/-- A change that logs nothing and keeps the record of `u`. -/
theorem Reports.of_orders (hf : e'.fills = e.fills) (ho : e'.orders.lookup u = e.orders.lookup u) :
    Reports u e e' := by
  have h := Reports.refl u e
  obtain ⟨cs, hcs, h⟩ := h
  exact ⟨cs, hf.trans hcs, by rw [ho]; exact h⟩

theorem Reports.trans (h₁ : Reports u e e₁) (h₂ : Reports u e₁ e₂) : Reports u e e₂ := by
  obtain ⟨cs₁, hf₁, h₁⟩ := h₁
  obtain ⟨cs₂, hf₂, h₂⟩ := h₂
  refine ⟨cs₁ ++ cs₂, by rw [hf₂, hf₁, List.append_assoc], ?_⟩
  split at h₁
  case h_1 he =>
    obtain ⟨ht₁, he₁⟩ := h₁
    rw [he₁] at h₂
    obtain ⟨ht₂, he₂⟩ := h₂
    exact ⟨by simp [ht₁, ht₂], he₂⟩
  case h_2 m he =>
    obtain ⟨ha₁, steps₁, q₁, ht₁, hc₁, he₁⟩ := h₁
    cases hm₁ : e₁.orders.lookup u with
    | none =>
      rw [hm₁] at h₂
      obtain ⟨ht₂, he₂⟩ := h₂
      refine ⟨fun c hc hu => ?_, steps₁, q₁, by simp [ht₁, ht₂], hc₁, fun m' h => by
        rw [he₂] at h; cases h⟩
      rcases List.mem_append.mp hc with hc | hc
      · exact ha₁ c hc hu
      · have : c.tradeResponse ∈ tradesOf u (cs₂.map (·.tradeResponse)) :=
          List.mem_filter.mpr ⟨List.mem_map_of_mem _ hc, by simpa using hu⟩
        rw [ht₂] at this; cases this
    | some m₁ =>
      rw [hm₁] at h₂
      obtain rfl := he₁ m₁ hm₁
      obtain ⟨ha₂, steps₂, q₂, ht₂, hc₂, he₂⟩ := h₂
      refine ⟨fun c hc hu => ?_, steps₁ ++ steps₂, q₂, by simp [ht₁, ht₂], hc₁.append hc₂,
        fun m' h => by rw [he₂ m' h]⟩
      rcases List.mem_append.mp hc with hc | hc
      exacts [ha₁ c hc hu, ha₂ c hc hu]

end Reports

section Round

variable {extra : List Nat} {side : Side} {u : Nat} {e e' : Engine} {o o' : Order}

/-- The reports of a taker's callback carry order id 0. -/
theorem takerCallback_tradeOrderId (m o : Order) :
    (takerCallback m o).tradeResponse.tradeOrderId = some 0 := by
  unfold takerCallback; split <;> rfl

/-- A round logs the maker's callback and then the taker's, whose report carries order id 0. -/
theorem tradesOf_round {u : Nat} (hu : u ≠ 0) (c₁ c₂ : Callback)
    (h₂ : c₂.tradeResponse.tradeOrderId = some 0) :
    tradesOf u ([c₁, c₂].map (·.tradeResponse)) = tradesOf u [c₁.tradeResponse] := by
  simp [tradesOf, List.filter_cons, h₂, Ne.symm hu]

/-- A callback whose report carries order id `u` is among the reports of `u`. -/
theorem mem_tradesOf {u : Nat} {cs : List Callback} {c : Callback} (hc : c ∈ cs)
    (hu : c.tradeResponse.tradeOrderId = some u) :
    c.tradeResponse ∈ tradesOf u (cs.map (·.tradeResponse)) :=
  List.mem_filter.mpr ⟨List.mem_map_of_mem _ hc, by simpa using hu⟩

/-- A round that fills an order other than `u`, and keeps `u`'s record, reports nothing of `u`. -/
theorem Reports.of_other {u : Nat} {e e' : Engine} {c₁ c₂ : Callback}
    (hf : e'.fills = e.fills ++ [c₁, c₂]) (ht : tradesOf u ([c₁, c₂].map (·.tradeResponse)) = [])
    (ho : e'.orders.lookup u = e.orders.lookup u) : Reports u e e' := by
  refine ⟨_, hf, ?_⟩
  split
  next he => exact ⟨ht, ho.trans he⟩
  next m₀ he =>
    refine ⟨fun c hc hc' => ?_, [], m₀.quantity, by simpa using ht, .nil _,
      fun m' h => by rw [ho, he] at h; cases h; rfl⟩
    have := mem_tradesOf hc hc'
    rw [ht] at this; cases this

/-- **One round reports one fill of its maker.** A round logs a callback of the maker `m`, whose
report is a fill of `x` of it, then the taker's, and leaves `m` out of the map or resting with what
it has left. It reports that fill of `u` if `m` is `u`, and nothing of `u` otherwise. -/
theorem Reports.round {uid x : Nat} {m : Order} {c₁ c₂ : Callback} (hu : u ≠ 0)
    (hm : e.orders.lookup uid = some m) (hmu : m.uid = uid) (hx : x ≤ m.quantity)
    (hf : e'.fills = e.fills ++ [c₁, c₂]) (h₁ : c₁.tradeResponse = fillReport m (x, m.quantity - x))
    (ha : c₁.account = m.account) (h₂ : c₂.tradeResponse.tradeOrderId = some 0)
    (hrest : ∀ m', e'.orders.lookup uid = some m' → m' = { m with quantity := m.quantity - x })
    (hother : ∀ v, v ≠ uid → e'.orders.lookup v = e.orders.lookup v) : Reports u e e' := by
  have ht := tradesOf_round hu c₁ c₂ h₂
  by_cases hum : uid = u
  · subst hum
    refine ⟨_, hf, ?_⟩
    rw [hm]
    refine ⟨?_, [(x, m.quantity - x)], m.quantity - x, ?_, CountsDown.single hx, hrest⟩
    · simp only [List.mem_cons, List.mem_singleton, List.not_mem_nil, or_false]
      rintro c (rfl | rfl) hc
      · exact ha
      · rw [h₂] at hc; exact absurd (Option.some_inj.mp hc).symm hu
    · rw [ht, h₁]; simp [tradesOf, fillReport, Response.tradeOrderId, hmu]
  · refine .of_other hf ?_ (hother u (Ne.symm hum))
    rw [ht, h₁]; simp [tradesOf, fillReport, Response.tradeOrderId, hmu, hum]

/-- **What one round reports of order `u`.** The round fills the head `m` of the best level. If
`m` is `u`, it reports one fill of `u`: all of it when the taker takes all of it, and what the
taker wants otherwise, leaving the rest. Any other order is neither reported nor touched. -/
theorem marketStep_reports (hb : BookOk extra e) (hu : u ≠ 0)
    (hs : LimitTree.marketStep side e o = some (e', o')) : Reports u e e' := by
  obtain ⟨key, l, uid, m, -, -, -, hl, hh, hm, hr⟩ := marketStep_eq_some hs
  have hmu := (hb.lookup_queued (mem_queued.mpr ⟨l, (LimitTree.find_some hl).1,
    List.mem_of_mem_head? hh⟩) hm).1
  by_cases hq : m.quantity ≤ o.quantity
  · -- the maker is filled entirely and leaves the book
    rw [if_pos hq] at hr
    obtain ⟨rfl, -⟩ := Prod.ext_iff.mp hr
    refine Reports.round hu hm hmu le_rfl fillMaker_fills (by simp [Callback.tradeResponse, fillReport])
      rfl (takerCallback_tradeOrderId m o) (fun m' h => ?_) fun v hv => ?_
    · rw [fillMaker_orders, hmu, AList.lookup_erase] at h; cases h
    · rw [fillMaker_orders, AList.lookup_erase_ne (hmu ▸ hv)]
  · -- the maker keeps what the taker does not want
    rw [if_neg hq] at hr
    obtain ⟨rfl, -⟩ := Prod.ext_iff.mp hr
    refine Reports.round hu hm hmu (Nat.le_of_not_le hq) fillTaker_fills rfl rfl rfl (fun m' h => ?_)
      fun v hv => ?_
    · rw [fillTaker_orders, AList.lookup_insert] at h; cases h; rfl
    · rw [fillTaker_orders, AList.lookup_insert_ne hv]

end Round

/-! ## §3 The matching loop and the calls -/

section Calls

variable {u : Nat} {e e' : Engine}

/-- **A run of the matching loop** reports the fills of `u` as a count-down. -/
theorem BookOk.market_reports {extra : List Nat} (hb : BookOk extra e) (hu : u ≠ 0) (side : Side)
    (o : Order) : Reports u e (LimitTree.market side e o).1 :=
  (marketLoop_invariant (P := fun e' _ => BookOk extra e' ∧ Reports u e e')
    (fun _ _ _ _ hP hs => ⟨(hP.1.marketStep hs).1, hP.2.trans (marketStep_reports hP.1 hu hs)⟩)
    _ e o ⟨hb, .refl u e⟩).2

/-- **`limit_sell` / `limit_buy`** report the fills of a resting order `u` as a count-down: the
order they place is new, and it is never a maker of its own matching loop. -/
theorem Inv.limitSide_reports (h : Inv e) (hu : u ≠ 0) (hus : u ≠ e.sequence) (side : Side)
    (account : AccountId) (quantity price : Nat) :
    Reports u e (LimitOrderBook.limitSide side e account quantity price).2 := by
  have hfresh := h.sequence_not_mem
  let o : Order := ⟨e.sequence, side, quantity, price, none, account⟩
  have h₁ := h.book.emplace hfresh o
  have hr₁ : Reports u e { e with orders := e.orders.insert e.sequence o } :=
    .of_orders rfl (AList.lookup_insert_ne hus)
  let r := LimitTree.market side.not { e with orders := e.orders.insert e.sequence o } o
  have ho₂ : r.2.uid = e.sequence := congrArg Order.uid (h₁.market side.not o).2.2.2.1
  have hins : Reports u e { r.1 with orders := r.1.orders.insert e.sequence r.2 } :=
    (hr₁.trans (h₁.market_reports hu side.not o)).trans (.of_orders rfl (AList.lookup_insert_ne hus))
  rcases limitSide_cases side account quantity price hfresh with ⟨-, heq⟩ | ⟨-, -, heq⟩ |
    ⟨-, -, heq⟩ <;> rw [heq]
  · -- the order rests untouched
    exact hr₁.trans (.of_orders rfl (by simp [AList.lookup_insert_ne hus]))
  · -- the order is filled and dropped
    exact hins.trans (.of_orders rfl (AList.lookup_erase_ne hus))
  · -- what is left of the order rests
    refine hins.trans (.of_orders rfl ?_)
    rw [limit_orders, AList.lookup_insert_ne fun h => hus (h.trans ho₂)]

/-- **`cancel`** reports nothing: it takes its order out, or leaves the book as it was. -/
theorem cancel_reports {uid : Nat} (hc : LimitOrderBook.cancel e uid = .ok e') : Reports u e e' := by
  unfold LimitOrderBook.cancel at hc
  split at hc
  · cases hc
  next o ho =>
    cases hc
    by_cases hum : uid = u
    · subst hum
      refine ⟨[], by simp [LimitTree.cancel], ?_⟩
      rw [ho]
      exact ⟨by simp, [], o.quantity, rfl, .nil _, fun m' h => by simp at h⟩
    · exact .of_orders rfl (by simp [AList.lookup_erase_ne (Ne.symm hum)])

/-- **Every call the server makes** reports the fills of `u` as a count-down, for a `u` other than
0 and the uid the call would place. -/
theorem Inv.apply_reports (h : Inv e) (hu : u ≠ 0) (hus : u ≠ e.sequence) {r : Request}
    (hr : r.Reported) (happ : r.apply e = .ok e') : Reports u e e' := by
  cases r with
  | limit account side quantity price =>
    cases happ; rw [limit_eq_limitSide]; exact h.limitSide_reports hu hus side account quantity price
  | market account side quantity =>
    cases happ; rw [market_eq_marketSide]; exact h.book.market_reports hu side.not _
  | cancel uid => exact cancel_reports happ
  | reduce | clear => exact hr.elim

end Calls

/-- **Every run of calls reports the fills of a resting order as a count-down.** Along calls the
server makes, from a book satisfying the invariant, every uid `u` issued before the run, but 0,
has its fills reported as one count-down; a `u` absent at the start is never reported. -/
theorem Reachable.reports {allowed : Request → Prop} (hw : ∀ r, allowed r → r.Reported)
    {e₀ e : Engine} (hi : Inv e₀) (h : Reachable allowed e₀ e) {u : Nat} (hu : u ≠ 0)
    (hus : u < e₀.sequence) : Reports u e₀ e := by
  induction h with
  | start => exact .refl u e₀
  | step r hr hreach ha ih =>
    obtain ⟨hie, hseq⟩ := Reachable.sequence_le hw hi hreach
    exact ih.trans (hie.apply_reports hu (by omega) (hw r hr) ha)


end LOB

/-! ## §4 What a logged-in connection hears -/

namespace Server

/-- From `s` to `s'` the book logged the callbacks `cs` after its fills, and the trade reports
queued on connection `k` are the reports of those of `cs` on account `a`, in order. -/
def HearsFills (k : Nat) (a : LOB.AccountId) (s s' : Server) : Prop :=
  ∃ cs fs, s'.book.fills = s.book.fills ++ cs ∧
    (s'.connections k).output = (s.connections k).output ++ fs ∧
    (fs.map (·.response)).filter (·.tradeOrderId.isSome) =
      (cs.filter (·.account = a)).map (·.tradeResponse)

section Hears

variable {k : Nat} {a : LOB.AccountId} {s s₁ s₂ s' : Server}

theorem HearsFills.of_output (hf : s'.book.fills = s.book.fills)
    (ho : (s'.connections k).output = (s.connections k).output) : HearsFills k a s s' :=
  ⟨[], [], by simp [hf], by simp [ho], rfl⟩

theorem HearsFills.trans (h₁ : HearsFills k a s s₁) (h₂ : HearsFills k a s₁ s₂) :
    HearsFills k a s s₂ := by
  obtain ⟨cs₁, fs₁, hc₁, ho₁, ht₁⟩ := h₁
  obtain ⟨cs₂, fs₂, hc₂, ho₂, ht₂⟩ := h₂
  refine ⟨cs₁ ++ cs₂, fs₁ ++ fs₂, by rw [hc₂, hc₁, List.append_assoc],
    by rw [ho₂, ho₁, List.append_assoc], ?_⟩
  rw [List.map_append, List.filter_append, ht₁, ht₂, List.filter_append, List.map_append]

end Hears

/-! ## §5 The reports of an order along a run -/

/-- The runs from `s₁` along which connection `k` stays logged into account `a`. -/
inductive LoggedIn (k : Nat) (a : LOB.AccountId) (s₁ : Server) : Server → Prop
  | start : (s₁.connections k).account = some a → LoggedIn k a s₁ s₁
  | step {s s' : Server} (ev : Event) : LoggedIn k a s₁ s → s.step ev = .ok s' →
      (s'.connections k).account = some a → LoggedIn k a s₁ s'

section LoggedIn

variable {users : List (String × String)} {s₀ s₁ s : Server} {k : Nat} {a : LOB.AccountId}

theorem LoggedIn.account (h : LoggedIn k a s₁ s) : (s.connections k).account = some a := by
  cases h <;> assumption

theorem LoggedIn.reachable (h₁ : Reachable s₀ s₁) (h : LoggedIn k a s₁ s) : Reachable s₀ s := by
  induction h with
  | start => exact h₁
  | step ev _ hs _ ih => exact ih.step ev hs

/-- The book along a logged-in run changes by the calls the server makes. -/
theorem LoggedIn.reported (h : LoggedIn k a s₁ s) :
    LOB.Reachable LOB.Request.Reported s₁.book s.book := by
  induction h with
  | start => exact .start
  | step _ _ hs _ ih => exact ih.trans ((step_reported hs).mono fun _ hr => hr.1)

end LoggedIn

end Server

end CboeEmulator.OrderEntry

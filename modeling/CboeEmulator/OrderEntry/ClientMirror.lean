import CboeEmulator.OrderEntry.Client
import CboeEmulator.OrderEntry.Purge
import CboeEmulator.OrderEntry.Sessions
import CboeEmulator.OrderEntry.Uids
import CboeEmulator.OrderEntry.Responses
import CboeEmulator.OrderEntry.Conservation

/-!
# Order-Entry Client: What the Client Knows of Its Account

A `Client` learns about its account only from the frames its connection queues: the answers to
its own requests, and the `TradeResponse`s that its `SystemAccount`'s fill callbacks send. The
server's `LOB::Account` of the same account changes by the same events: the callbacks run on it,
a resting order is recorded in it, a cancel or a purge takes orders out of it. This module shows
that the two sides move together.

The book changes an account only by running the callbacks it also logs (`runCallbacks`), and by
recording or forgetting a resting order. Every callback it logs can be read back from its report:
a maker filled entirely has a uid that is not 0, and a maker filled in part has something left
(`Callback.Reportable`). A `Simulation` is any relation between the client and the account that
every pair of matching steps keeps. On a run in which the client's connection stays logged in
once it logs in, every simulation that holds at the login holds after every event.

## Main definitions

- `LOB.runCallbacks`, `LOB.Calls`: the accounts after a list of callbacks, and a step of the book
  that changes accounts only by the callbacks it logs;
- `Server.clientOf`: the client after it has read every frame its connection queued;
- `Simulation`: a relation between the client and its account kept by every matching pair of
  steps;
- `ClientRun`: the runs in which connection `k` never logs out, never sends a frame of unknown kind
  and is never closed.

## Main results

- `Inv.limitSide_calls`: `limit_sell` / `limit_buy` change the accounts by their callbacks, then
  record the order that rests;
- `clientOf_withBook`: what a call into the book does to the client of a connection;
- `Simulation.step`, `Simulation.run`: every event of a client run keeps a simulation, and so
  does every client run from the server's start;
- `ClientRun.run_of_some`: once logged in, a connection stays in a client run through every
  event that does not close it or log it out;
- `client_orders_mirror_server`: the client's active orders are its account's resting orders;
- `client_position_low_bits`: the client's capital is its account's, and its 32-bit shares are
  the low bits of the account's 64-bit shares;
- `client_shares_wrap`: a run on which the two share counts differ.
-/

namespace CboeEmulator.OrderEntry

open Messages

/-! ## §1 The book changes accounts by the callbacks it logs -/

namespace LOB

/-- A callback whose `TradeResponse` tells its client what the callback did to the account's
order set: a maker filled entirely has a uid that is not 0, a maker filled in part keeps some of
its quantity. -/
def Callback.Reportable : Callback → Prop
  | .limitFill l _ => l.uid ≠ 0
  | .limitPartial l _ => l.quantity ≠ 0
  | .marketFill _ _ | .marketPartial _ _ => True

/-- The accounts after the callbacks `cs`, each run in turn on its own account. -/
def runCallbacks (cs : List Callback) (accounts : AccountId → Account) : AccountId → Account :=
  cs.foldl (fun accounts c => Function.update accounts c.account (c.run (accounts c.account)))
    accounts

@[simp] theorem runCallbacks_nil (accounts : AccountId → Account) :
    runCallbacks [] accounts = accounts := rfl

theorem runCallbacks_append (cs ds : List Callback) (accounts : AccountId → Account) :
    runCallbacks (cs ++ ds) accounts = runCallbacks ds (runCallbacks cs accounts) :=
  List.foldl_append _ _ _ _

/-- From `e` to `e'` the accounts changed only by the callbacks the book logged on the way, and
every one of them is reportable. -/
def Calls (e e' : Engine) : Prop :=
  ∃ cs : List Callback, e'.fills = e.fills ++ cs ∧ e'.accounts = runCallbacks cs e.accounts ∧
    ∀ c ∈ cs, c.Reportable

section Calls

variable {extra : List Nat} {side : Side} {e e₁ e₂ : Engine}

theorem Calls.refl (e : Engine) : Calls e e := ⟨[], by simp, rfl, by simp⟩

theorem Calls.trans (h₁ : Calls e e₁) (h₂ : Calls e₁ e₂) : Calls e e₂ := by
  obtain ⟨cs, hf₁, ha₁, hr₁⟩ := h₁
  obtain ⟨ds, hf₂, ha₂, hr₂⟩ := h₂
  refine ⟨cs ++ ds, by rw [hf₂, hf₁, List.append_assoc], by rw [ha₂, ha₁, runCallbacks_append],
    fun c hc => ?_⟩
  rcases List.mem_append.mp hc with hc | hc
  · exact hr₁ c hc
  · exact hr₂ c hc

/-- A step that logs nothing and leaves the accounts. -/
theorem Calls.of_eq (hf : e₁.fills = e.fills) (ha : e₁.accounts = e.accounts) : Calls e e₁ :=
  ⟨[], by simp [hf], ha, by simp⟩

/-- **One round of the matching loop** runs the callbacks it logs, and each can be read back:
the maker it fills entirely is a record of the map, under a uid that is not 0, and the maker it
fills in part keeps what the taker did not take. -/
theorem Calls.marketStep (hb : BookOk extra e) (h0 : 0 ∉ e.orders) {o o' : Order}
    (hs : LimitTree.marketStep side e o = some (e₁, o')) : Calls e e₁ := by
  obtain ⟨key, l, uid, m, -, -, -, hl, hu, hm, hr⟩ := marketStep_eq_some hs
  have hmu := (hb.lookup_queued (mem_queued.mpr ⟨l, (LimitTree.find_some hl).1,
    List.mem_of_mem_head? hu⟩) hm).1
  have hu0 : m.uid ≠ 0 := fun h => h0 (AList.lookup_isSome.mp (by rw [← h, hmu, hm]; rfl))
  split at hr <;> obtain ⟨rfl, -⟩ := Prod.ext_iff.mp hr
  · refine ⟨[.limitFill m o, LimitTree.takerCallback m o], by simp, rfl, ?_⟩
    simp only [List.mem_cons, List.mem_singleton, List.not_mem_nil, or_false, forall_eq_or_imp,
      forall_eq, Callback.Reportable]
    exact ⟨hu0, by unfold LimitTree.takerCallback; split_ifs <;> trivial⟩
  · refine ⟨[.limitPartial { m with quantity := m.quantity - o.quantity } o,
      .marketFill { m with quantity := m.quantity - o.quantity } o], by simp, rfl, ?_⟩
    simp only [List.mem_cons, List.mem_singleton, List.not_mem_nil, or_false, forall_eq_or_imp,
      forall_eq, Callback.Reportable]
    exact ⟨show m.quantity - o.quantity ≠ 0 by omega, trivial⟩

/-- **A run of the matching loop** runs the callbacks it logs, each reportable. -/
theorem Calls.market (hb : BookOk extra e) (h0 : 0 ∉ e.orders) (side : Side) (o : Order) :
    Calls e (LimitTree.market side e o).1 := by
  refine (marketLoop_invariant (P := fun e' _ => BookOk extra e' ∧ 0 ∉ e'.orders ∧ Calls e e')
    ?_ _ e o ⟨hb, h0, .refl e⟩).2.2
  rintro e₁ o₁ e₂ o₂ ⟨hb₁, h0₁, hc⟩ hs
  obtain ⟨hb₂, hk, -⟩ := hb₁.marketStep hs
  exact ⟨hb₂, fun h => h0₁ (AList.mem_keys.mp (hk (AList.mem_keys.mpr h))),
    hc.trans (Calls.marketStep hb₁ h0₁ hs)⟩

end Calls

/-- From `e` to `e'` the accounts changed by the callbacks the book logged, each reportable, and
then, when `u` is not 0, by the record of the order `u` with `account`: what `limit_sell` and
`limit_buy` do. -/
def LimitCalls (e e' : Engine) (account : AccountId) (u : Nat) : Prop :=
  ∃ cs : List Callback, e'.fills = e.fills ++ cs ∧ (∀ c ∈ cs, c.Reportable) ∧ ∀ b,
    e'.accounts b = if b = account ∧ u ≠ 0 then
      { runCallbacks cs e.accounts b with orders := insert u (runCallbacks cs e.accounts b).orders }
    else runCallbacks cs e.accounts b

theorem Calls.limitCalls {e e' : Engine} (h : Calls e e') (account : AccountId) :
    LimitCalls e e' account 0 := by
  obtain ⟨cs, hf, ha, hr⟩ := h
  exact ⟨cs, hf, hr, fun b => by simp [ha]⟩

section Limit

variable {e : Engine}

/-- **`limit_sell` / `limit_buy`** change the accounts only by the callbacks of their matching
loop, each reportable, and then record the order with its account when it rests; the uid they
return is then the order's, and not 0. -/
theorem Inv.limitSide_calls (h : Inv e) (h0 : 0 ∉ e.orders) (side : Side) (account : AccountId)
    (quantity price : Nat) :
    LimitCalls e (LimitOrderBook.limitSide side e account quantity price).2 account
      (LimitOrderBook.limitSide side e account quantity price).1 := by
  have hfresh := h.sequence_not_mem
  have hseq : e.sequence ≠ 0 := Nat.pos_iff_ne_zero.mp h.sequence_pos
  set o : Order := ⟨e.sequence, side, quantity, price, none, account⟩
  have hb₁ := h.book.emplace hfresh o
  have h0₁ : 0 ∉ (e.orders.insert e.sequence o) := by
    rw [AList.mem_insert]; exact fun h' => h'.elim (fun h' => hseq h'.symm) h0
  obtain ⟨cs, hf, ha, hr⟩ := Calls.market (e := { e with orders := e.orders.insert e.sequence o })
    hb₁ h0₁ side.not o
  obtain ⟨-, -, -, ho₂, -, -⟩ := hb₁.market side.not o
  rcases limitSide_cases side account quantity price hfresh with ⟨-, heq⟩ | ⟨-, -, heq⟩ |
    ⟨-, -, heq⟩ <;> rw [heq]
  · -- the order rests untouched
    refine ⟨[], by simp [LimitTree.limit], by simp, fun b => ?_⟩
    by_cases hb : b = account
    · subst hb; simp [LimitTree.limit, Account.limit, hseq, o]
    · simp [LimitTree.limit, Function.update_noteq hb, hb]
  · -- the order is filled and dropped
    exact ⟨cs, hf, hr, fun b => by simp [ha]⟩
  · -- what is left of the order rests
    have hacc : (LimitTree.market side.not { e with orders := e.orders.insert e.sequence o } o).2.account
        = account := congrArg Order.account ho₂
    have huid : (LimitTree.market side.not { e with orders := e.orders.insert e.sequence o } o).2.uid
        = e.sequence := congrArg Order.uid ho₂
    refine ⟨cs, by simpa [LimitTree.limit] using hf, hr, fun b => ?_⟩
    by_cases hb : b = account
    · subst hb; simp [LimitTree.limit, Account.limit, hseq, hacc, huid, ha]
    · simp [LimitTree.limit, Function.update_noteq (Ne.symm (hacc ▸ Ne.symm hb)), hb, ha]

/-- **`market_sell` / `market_buy`** change the accounts only by the callbacks of their matching
loop, each reportable. -/
theorem Inv.marketSide_calls (h : Inv e) (h0 : 0 ∉ e.orders) (side : Side) (account : AccountId)
    (quantity : Nat) : Calls e (LimitOrderBook.marketSide side e account quantity) :=
  Calls.market h.book h0 side.not _

end Limit

/-- Every book reachable by calls from an empty one is reached by a run that `Issued` records. -/
theorem Reachable.issued {allowed : Request → Prop} {e₀ e : Engine}
    (h : Reachable allowed e₀ e) : ∃ us, Issued e₀ e us := by
  induction h with
  | start => exact ⟨[], .start⟩
  | step r _ _ hr ih => obtain ⟨us, hu⟩ := ih; exact ⟨_, .step r hu hr⟩

end LOB

/-! ## §2 The frames a connection's client reads -/

/-- A trade report and an accepted cancel commute, over any list of callbacks. -/
theorem Client.foldl_tradeResponse_cancel (cbs : List LOB.Callback) (u : Nat) :
    ∀ c : Client, ((cbs.map (·.tradeResponse)).foldl Client.handle c).handleCancelResponse u
        .accepted = (cbs.map (·.tradeResponse)).foldl Client.handle (c.handleCancelResponse u .accepted) := by
  induction cbs with
  | nil => intro c; rfl
  | cons cb cbs ih =>
    intro c
    rw [List.map_cons, List.foldl_cons, List.foldl_cons, ih]
    congr 1
    cases cb <;> exact Client.handleTradeResponse_cancel u _ _ _ _ _

namespace Server

/-- The client on connection `k` once it has read every frame the connection queued. -/
def clientOf (s : Server) (k : Nat) : Client := Client.new.receive (s.connections k).output

section Frames

variable {s t : Server} {k j : Nat}

theorem clientOf_congr (h : t.connections k = s.connections k) : t.clientOf k = s.clientOf k := by
  unfold clientOf; rw [h]

/-- `send` on `j` queues one frame, which the client on `k` reads when `k` is `j`. -/
theorem clientOf_send (r : Response) :
    (s.send j r).clientOf k = if k = j then (s.clientOf k).handle r else s.clientOf k := by
  unfold clientOf
  rw [send_connections]
  split
  · subst k; simp [Connection.push, Client.receive_append]
  · rfl

/-- The reports queued on `k` by a run of callbacks. -/
theorem clientOf_foldl_report (cbs : List LOB.Callback) :
    ∀ t : Server, t.authorizer = s.authorizer →
      (cbs.foldl report t).clientOf k =
        ((cbs.filter fun c => s.handlerOf c.account = some k).map (·.tradeResponse)).foldl
          Client.handle (t.clientOf k) := by
  induction cbs with
  | nil => intro t _; rfl
  | cons cb cbs ih =>
    intro t ht
    have hh : t.handlerOf cb.account = s.handlerOf cb.account := by simp [handlerOf, ht]
    rw [List.foldl_cons, ih _ (by rw [report_authorizer, ht]), List.filter_cons]
    unfold report
    rw [hh]
    split
    case h_1 hn => simp [hn]
    case h_2 j hj =>
      rw [clientOf_send]
      by_cases hkj : k = j
      · subst hkj; simp [hj]
      · simp [hj, hkj, Ne.symm hkj]

/-- **The frames a call into the book queues on `k`**: the reports of the new callbacks whose
account has `k` as its handler, in order. -/
theorem clientOf_withBook (e : LOB.Engine) :
    (s.withBook e).clientOf k =
      (((e.fills.drop s.book.fills.length).filter fun c => s.handlerOf c.account = some k).map
        (·.tradeResponse)).foldl Client.handle (s.clientOf k) :=
  clientOf_foldl_report _ { s with book := e } rfl

end Frames

/-! ## §3 Simulations -/

/-- A relation `R` between the client and the server's record of the account it is logged into,
with `Q` what the client keeps while logged out and `L` what holds of an account when the
connection logs into it, kept by every pair of steps the two sides take together: a callback
run on the account and its report read, an order recorded and its uid answered, an accepted
cancel, an accepted purge, and the login itself. -/
structure Simulation (R : Client → LOB.Account → Prop) (Q : Client → Prop)
    (L : Server → LOB.AccountId → Prop) : Prop where
  /-- the login flag is not part of the relation -/
  authorized : ∀ cl acc b, R cl acc → R { cl with isAuthorized := b } acc
  /-- nor of what the client keeps while logged out -/
  authorized_out : ∀ cl b, Q cl → Q { cl with isAuthorized := b }
  /-- a callback run on the account, and its report read -/
  trade : ∀ cl acc (c : LOB.Callback), R cl acc → c.Reportable →
    R (cl.handle c.tradeResponse) (c.run acc)
  /-- an order that rests under the uid its response carries -/
  rest : ∀ cl acc u, R cl acc → u ≠ 0 →
    R (cl.handleOrderResponse u .accepted) { acc with orders := insert u acc.orders }
  /-- an accepted cancel -/
  cancel : ∀ cl acc u, R cl acc →
    R (cl.handleCancelResponse u .accepted) { acc with orders := acc.orders.erase u }
  /-- an accepted purge -/
  purge : ∀ cl acc, R cl acc → R (cl.handlePurgeResponse .accepted) { acc with orders := ∅ }
  /-- the login that binds the connection to `a` -/
  login : ∀ s a cl, BookInv s → Q cl → L s a →
    R { cl with isAuthorized := true } (s.book.accounts a)

/-- The client on connection `k` and the server agree: logged out, the client satisfies `Q`;
logged into `a`, it is related by `R` to the server's account `a`. -/
def Agrees (R : Client → LOB.Account → Prop) (Q : Client → Prop) (k : Nat) (s : Server) : Prop :=
  match (s.connections k).account with
  | none => Q (s.clientOf k)
  | some a => R (s.clientOf k) (s.book.accounts a)

section Agrees

variable {R : Client → LOB.Account → Prop} {Q : Client → Prop} {L : Server → LOB.AccountId → Prop}
  {s t : Server} {k j : Nat} {a : LOB.AccountId}

theorem agrees_of_none (hk : (s.connections k).account = none) :
    Agrees R Q k s ↔ Q (s.clientOf k) := by
  unfold Agrees; rw [hk]

theorem agrees_of_some (hk : (s.connections k).account = some a) :
    Agrees R Q k s ↔ R (s.clientOf k) (s.book.accounts a) := by
  unfold Agrees; rw [hk]

/-- A server with the same connection `k` and the same book. -/
theorem Agrees.congr (h : Agrees R Q k s) (hc : t.connections k = s.connections k)
    (hb : t.book = s.book) : Agrees R Q k t := by
  unfold Agrees at h ⊢; rw [clientOf_congr hc, hc, hb]; exact h

/-- A frame that changes no client. -/
theorem Agrees.send_noop (h : Agrees R Q k s) {r : Response} (hr : ∀ cl : Client, cl.handle r = cl) (j : Nat) :
    Agrees R Q k (s.send j r) := by
  have hc : (s.send j r).clientOf k = s.clientOf k := by
    rw [clientOf_send]; split_ifs <;> simp only [hr]
  unfold Agrees at h ⊢
  rwa [send_account, send_book, hc]

/-- A client logged out is sent no report. -/
theorem clientOf_withBook_of_none (hB : Bound s) (hk : (s.connections k).account = none)
    (e : LOB.Engine) : (s.withBook e).clientOf k = s.clientOf k := by
  rw [clientOf_withBook, List.filter_eq_nil_iff.mpr, List.map_nil, List.foldl_nil]
  intro c _ hc
  rw [decide_eq_true_iff, hB.handlerOf_iff, hk] at hc
  cases hc

/-- The reports the client reads of a run of callbacks, against the callbacks run on its
account. -/
theorem Simulation.reports (hS : Simulation R Q L) (a : LOB.AccountId) {p : LOB.Callback → Bool}
    (hp : ∀ c, p c = true ↔ c.account = a) :
    ∀ (cs : List LOB.Callback) (cl : Client) (accounts : LOB.AccountId → LOB.Account),
      (∀ c ∈ cs, c.Reportable) → R cl (accounts a) →
      R (((cs.filter p).map (·.tradeResponse)).foldl Client.handle cl)
        (LOB.runCallbacks cs accounts a)
  | [], _, _, _, h => h
  | c :: cs, cl, accounts, hr, h => by
    have hrest := hS.reports a hp cs
    show R _ (LOB.runCallbacks cs (Function.update accounts c.account (c.run (accounts c.account))) a)
    rw [List.filter_cons]
    by_cases hca : c.account = a
    · rw [if_pos ((hp c).mpr hca), List.map_cons, List.foldl_cons]
      refine hrest _ _ (fun d hd => hr d (List.mem_cons_of_mem _ hd)) ?_
      subst hca
      rw [Function.update_same]
      exact hS.trade _ _ c h (hr c (List.mem_cons_self _ _))
    · rw [if_neg (fun h' => hca ((hp c).mp h'))]
      refine hrest _ _ (fun d hd => hr d (List.mem_cons_of_mem _ hd)) ?_
      rwa [Function.update_noteq (Ne.symm hca)]

/-- **The reports a call into the book queues on a connection logged into `a`** keep a
simulation, against the callbacks run on `a`. -/
theorem Simulation.withBook (hS : Simulation R Q L) (hB : Bound s)
    (hk : (s.connections k).account = some a) {e : LOB.Engine} {cs : List LOB.Callback}
    (hf : e.fills = s.book.fills ++ cs) (hr : ∀ c ∈ cs, c.Reportable) {cl : Client}
    (h : R cl (s.book.accounts a)) :
    R ((((e.fills.drop s.book.fills.length).filter fun c => s.handlerOf c.account = some k).map
        (·.tradeResponse)).foldl Client.handle cl) (LOB.runCallbacks cs s.book.accounts a) := by
  rw [hf, List.drop_left]
  refine hS.reports a (fun c => ?_) cs cl _ hr h
  rw [decide_eq_true_iff, hB.handlerOf_iff, hk, Option.some_inj, eq_comm]

/-- **A call that may record a resting order**, answered on its connection `j` by a frame that
the client reads as the answer to an order of uid `u`. -/
theorem Simulation.withBook_send (hS : Simulation R Q L) (hB : Bound s) (h : Agrees R Q k s)
    {b : LOB.AccountId} (hj : (s.connections j).account = some b) {e : LOB.Engine} {u : Nat}
    (hL : LOB.LimitCalls s.book e b u) {r : Response}
    (hr : ∀ cl : Client, cl.handle r = cl.handleOrderResponse u .accepted) :
    Agrees R Q k ((s.withBook e).send j r) := by
  obtain ⟨cs, hf, hrep, ha⟩ := hL
  cases hk : (s.connections k).account with
  | none =>
    have hkj : k ≠ j := fun hkj => by rw [hkj, hj] at hk; cases hk
    rw [agrees_of_none (by simpa using hk), clientOf_send, if_neg hkj,
      clientOf_withBook_of_none hB hk]
    exact (agrees_of_none hk).mp h
  | some a =>
    rw [agrees_of_some (by simpa using hk), clientOf_send, clientOf_withBook, send_book,
      withBook_book, ha a]
    have hrun := hS.withBook hB hk hf hrep ((agrees_of_some hk).mp h)
    by_cases hkj : k = j
    · subst hkj
      obtain rfl : b = a := Option.some_inj.mp (hj.symm.trans hk)
      rw [if_pos rfl, hr]
      by_cases hu : u = 0
      · subst hu; simpa using hrun
      · rw [if_pos ⟨rfl, hu⟩]; exact hS.rest _ _ u hrun hu
    · have hba : a ≠ b := fun hab => hkj (hB.unique hk (hab ▸ hj))
      rw [if_neg hkj, if_neg (fun h' => hba h'.1)]
      exact hrun

/-- A login response changes no client's part in a simulation. -/
theorem Agrees.send_login (hS : Simulation R Q L) (h : Agrees R Q k s) (st : LoginResponseStatus)
    (j : Nat) : Agrees R Q k (s.send j (.loginResponse st)) := by
  obtain ⟨b, hb⟩ := (s.clientOf k).handleLoginResponse_eq st
  have hc : (s.send j (.loginResponse st)).clientOf k = s.clientOf k ∨
      (s.send j (.loginResponse st)).clientOf k = { s.clientOf k with isAuthorized := b } := by
    rw [clientOf_send]; split_ifs
    exacts [.inr hb, .inl rfl]
  cases hk : (s.connections k).account with
  | none =>
    rw [agrees_of_none (by simpa using hk)]
    have hQ := (agrees_of_none hk).mp h
    rcases hc with hc | hc <;> rw [hc]
    exacts [hQ, hS.authorized_out _ b hQ]
  | some a =>
    rw [agrees_of_some (by simpa using hk), send_book]
    have hR := (agrees_of_some hk).mp h
    rcases hc with hc | hc <;> rw [hc]
    exacts [hR, hS.authorized _ _ b hR]

end Agrees

/-! ## §4 The handlers keep a simulation -/

section Handlers

variable {R : Client → LOB.Account → Prop} {Q : Client → Prop} {L : Server → LOB.AccountId → Prop}
  {s s' : Server} {k j : Nat}

/-- An order request from a connection logged into `b` is a call that may record a resting
order, answered with its uid. -/
theorem handleOrderRequest_calls (hb : BookInv s) (h0 : 0 ∉ s.book.orders) {b : LOB.AccountId}
    (hj : (s.connections j).account = some b) (price quantity : Nat) (side : Side) :
    ∃ e u, LOB.LimitCalls s.book e b u ∧
      s.handleOrderRequest j price quantity side = (s.withBook e).send j (.orderResponse u .accepted) := by
  by_cases hp : price = 0
  · refine ⟨_, 0, (hb.1.marketSide_calls h0 (sideToLOBSide side) b quantity).limitCalls b, ?_⟩
    simp [handleOrderRequest, hj, orderPriceMarket, hp, orderIdMarket,
      LOB.LimitOrderBook.market_eq_marketSide]
  · refine ⟨_, _, hb.1.limitSide_calls h0 (sideToLOBSide side) b quantity price, ?_⟩
    rw [handleOrderRequest_limit hj hp, LOB.LimitOrderBook.limit_eq_limitSide]

/-- The end of a replace is a call that may record a resting order, answered with its uid. -/
theorem replaceOrder_calls (hb : LOB.Inv s.book) (h0 : 0 ∉ s.book.orders) (j : Nat)
    (b : LOB.AccountId) (canceled price quantity : Nat) (side : Side) :
    ∃ e u, LOB.LimitCalls s.book e b u ∧ s.replaceOrder j b canceled price quantity side =
      (s.withBook e).send j (.replaceResponse canceled u .accepted) := by
  unfold replaceOrder
  split_ifs
  · exact ⟨_, _, hb.limitSide_calls h0 .sell b quantity price, rfl⟩
  · exact ⟨_, _, hb.limitSide_calls h0 .buy b quantity price, rfl⟩
  · exact ⟨_, _, (LOB.Calls.refl _).limitCalls b, rfl⟩

/-- `cancel` on a record of the map: no callback, and the record's account forgets it. -/
theorem cancel_of_lookup {e : LOB.Engine} {uid : Nat} {o : LOB.Order}
    (ho : e.orders.lookup uid = some o) :
    ∃ e', LOB.LimitOrderBook.cancel e uid = .ok e' ∧ e'.fills = e.fills ∧
      e'.accounts = Function.update e.accounts o.account ((e.accounts o.account).cancel o) :=
  ⟨{ LOB.LimitTree.cancel o.side e o with orders := e.orders.erase uid },
    by simp [LOB.LimitOrderBook.cancel, ho, LOB.LimitTree.cancel], rfl, rfl⟩

theorem Simulation.handleOrderRequest (hS : Simulation R Q L) (hB : Bound s) (hb : BookInv s)
    (h0 : 0 ∉ s.book.orders) (h : Agrees R Q k s) (j price quantity : Nat) (side : Side) :
    Agrees R Q k (s.handleOrderRequest j price quantity side) := by
  cases hj : (s.connections j).account with
  | none => rw [Server.handleOrderRequest, hj]; exact h.send_noop (fun _ => by rfl) j
  | some b =>
    obtain ⟨e, u, hL, heq⟩ := handleOrderRequest_calls hb h0 hj price quantity side
    rw [heq]
    exact hS.withBook_send hB h hj hL fun _ => rfl

/-- An accepted cancel of an order of the account `b` of connection `j`. -/
theorem Simulation.cancel_send (hS : Simulation R Q L) (hB : Bound s) (h : Agrees R Q k s)
    {b : LOB.AccountId} (hj : (s.connections j).account = some b) {o : LOB.Order}
    (hob : o.account = b) {e : LOB.Engine} (hf : e.fills = s.book.fills)
    (ha : e.accounts = Function.update s.book.accounts o.account ((s.book.accounts o.account).cancel o)) :
    Agrees R Q k ((s.withBook e).send j (.cancelResponse o.uid .accepted)) := by
  rw [withBook_of_fills hf]
  cases hk : (s.connections k).account with
  | none =>
    have hkj : k ≠ j := fun hkj => by rw [hkj, hj] at hk; cases hk
    rw [agrees_of_none (by simpa using hk), clientOf_send, if_neg hkj]
    exact (agrees_of_none hk).mp h
  | some a =>
    rw [agrees_of_some (by simpa using hk), clientOf_send, send_book, ha]
    have hR := (agrees_of_some hk).mp h
    by_cases hkj : k = j
    · subst hkj
      obtain rfl : b = a := Option.some_inj.mp (hj.symm.trans hk)
      rw [if_pos rfl, hob, Function.update_same]
      exact hS.cancel _ _ o.uid hR
    · have hba : a ≠ b := fun hab => hkj (hB.unique hk (hab ▸ hj))
      rw [if_neg hkj, hob, Function.update_noteq hba]
      exact hR

theorem Simulation.handleCancelRequest (hS : Simulation R Q L) (hB : Bound s) (hb : BookInv s)
    (h : Agrees R Q k s) {orderId : Nat} (hs : s.handleCancelRequest j orderId = .ok s') :
    Agrees R Q k s' := by
  cases hj : (s.connections j).account with
  | none =>
    rw [Server.handleCancelRequest, hj] at hs
    cases hs; exact h.send_noop (fun _ => by rfl) j
  | some b =>
    cases ho : s.book.orders.lookup orderId with
    | none =>
      have hhas := LOB.LimitOrderBook.has_of_lookup_eq_none ho
      rw [Server.handleCancelRequest, hj] at hs
      simp only [hhas] at hs
      cases hs; exact h.send_noop (fun _ => by rfl) j
    | some o =>
      obtain ⟨e, hc, hf, ha⟩ := cancel_of_lookup ho
      by_cases hob : o.account = b
      · rw [handleCancelRequest_owned hj ho hob hc] at hs
        cases hs
        rw [← (hb.1.book.queued_of_lookup ho).2]
        exact hS.cancel_send hB h hj hob hf ha
      · have hhas := LOB.LimitOrderBook.has_of_lookup ho
        simp [Server.handleCancelRequest, hj, hhas, LOB.LimitOrderBook.get, ho, hob, bind, Except.bind,
          pure, Except.pure] at hs
        subst hs; exact h.send_noop (fun _ => by rfl) j

theorem Simulation.handleReplaceRequest (hS : Simulation R Q L) (hB : Bound s) (hb : BookInv s)
    (h0 : 0 ∉ s.book.orders) (h : Agrees R Q k s) {orderId price quantity : Nat} {side : Side}
    (hs : s.handleReplaceRequest j orderId price quantity side = .ok s') : Agrees R Q k s' := by
  cases hj : (s.connections j).account with
  | none =>
    rw [Server.handleReplaceRequest, hj] at hs
    cases hs; exact h.send_noop (fun _ => by rfl) j
  | some b =>
    cases ho : s.book.orders.lookup orderId with
    | none =>
      -- the order is gone: only the new order is placed
      have hhas := LOB.LimitOrderBook.has_of_lookup_eq_none ho
      rw [handleReplaceRequest_absent hj hhas] at hs
      cases hs
      obtain ⟨e, u, hL, heq⟩ := replaceOrder_calls hb.1 h0 j b orderIdRejected price quantity side
      rw [heq]
      exact hS.withBook_send hB h hj hL fun cl => Client.handleReplaceResponse_zero (c := cl) u
    | some o =>
      obtain ⟨e₁, hc, hf, ha⟩ := cancel_of_lookup ho
      by_cases hob : o.account = b
      · -- the order is `b`'s: it is canceled, then the new order is placed
        rw [handleReplaceRequest_owned hj ho hob hc, withBook_of_fills hf] at hs
        cases hs
        have hou := (hb.1.book.queued_of_lookup ho).2
        have h0₁ : 0 ∉ e₁.orders := fun hm => h0 (LOB.mem_of_cancel hc hm)
        have hB₁ : Bound { s with book := e₁ } := hB.congr ⟨rfl, fun _ => rfl⟩
        obtain ⟨e, u, ⟨cs, hf', hrep, ha'⟩, heq⟩ :=
          replaceOrder_calls (s := { s with book := e₁ }) (hb.1.cancel hc) h0₁ j b orderId price
            quantity side
        rw [heq]
        cases hk : (s.connections k).account with
        | none =>
          have hkj : k ≠ j := fun hkj => by rw [hkj, hj] at hk; cases hk
          rw [agrees_of_none (by simpa using hk), clientOf_send, if_neg hkj,
            clientOf_withBook_of_none hB₁ hk]
          exact (agrees_of_none hk).mp h
        | some a =>
          rw [agrees_of_some (by simpa using hk), clientOf_send, clientOf_withBook, send_book,
            withBook_book, ha' a]
          have hR := (agrees_of_some hk).mp h
          by_cases hkj : k = j
          · subst hkj
            obtain rfl : b = a := Option.some_inj.mp (hj.symm.trans hk)
            have hu0 : orderId ≠ 0 := fun h' => h0 (h' ▸ LOB.mem_of_lookup ho)
            rw [if_pos rfl]
            show R (Client.handleReplaceResponse _ orderId u .accepted) _
            rw [Client.handleReplaceResponse_of_ne hu0, Client.foldl_tradeResponse_cancel]
            have hcan : R ((s.clientOf k).handleCancelResponse orderId .accepted) (e₁.accounts o.account) := by
              rw [ha, Function.update_same, ← hou]; exact hS.cancel _ _ o.uid (hob ▸ hR)
            have hrun := hS.withBook (s := { s with book := e₁ }) hB₁ hk hf' hrep (hob ▸ hcan)
            by_cases hu : u = 0
            · subst hu; simpa using hrun
            · rw [if_pos ⟨rfl, hu⟩]; exact hS.rest _ _ u hrun hu
          · have hba : a ≠ b := fun hab => hkj (hB.unique hk (hab ▸ hj))
            rw [if_neg hkj, if_neg (fun h' => hba h'.1)]
            refine hS.withBook (s := { s with book := e₁ }) hB₁ hk hf' hrep ?_
            show R _ (e₁.accounts a)
            rwa [ha, hob, Function.update_noteq hba]
      · have hhas := LOB.LimitOrderBook.has_of_lookup ho
        simp [Server.handleReplaceRequest, hj, hhas, LOB.LimitOrderBook.get, ho, hob, bind,
          Except.bind, pure, Except.pure] at hs
        subst hs; exact h.send_noop (fun _ => by rfl) j

theorem Simulation.handlePurgeRequest (hS : Simulation R Q L) (hB : Bound s) (hb : BookInv s)
    (h : Agrees R Q k s) (hs : s.handlePurgeRequest j = .ok s') : Agrees R Q k s' := by
  cases hj : (s.connections j).account with
  | none =>
    rw [Server.handlePurgeRequest, hj] at hs
    cases hs; exact h.send_noop (fun _ => by rfl) j
  | some b =>
    obtain ⟨s₁, hp, -, hP, hc, -⟩ := hb.purgeLoop_purged (a := b) _ s le_rfl
    rw [Server.handlePurgeRequest, hj] at hs
    simp only [hp, bind, Except.bind, pure, Except.pure, Except.ok.injEq] at hs
    subst hs
    cases hk : (s.connections k).account with
    | none =>
      have hkj : k ≠ j := fun hkj => by rw [hkj, hj] at hk; cases hk
      rw [agrees_of_none (by simp [hc, hk]), clientOf_send, if_neg hkj,
        clientOf_congr (congrFun hc k)]
      exact (agrees_of_none hk).mp h
    | some a =>
      rw [agrees_of_some (a := a) (by simp [hc, hk]), clientOf_send, clientOf_congr (congrFun hc k),
        send_book]
      have hR := (agrees_of_some hk).mp h
      by_cases hkj : k = j
      · subst hkj
        obtain rfl : b = a := Option.some_inj.mp (hj.symm.trans hk)
        rw [if_pos rfl, hP.account, Finset.sdiff_self]
        exact hS.purge _ _ hR
      · have hba : a ≠ b := fun hab => hkj (hB.unique hk (hab ▸ hj))
        rw [if_neg hkj, hP.others a hba]
        exact hR

/-- A login request is answered with a status and no other change, or binds the connection. -/
theorem handleLoginRequest_cases (s : Server) (j : Nat) (u p : String) :
    (∃ st, s.handleLoginRequest j u p = s.send j (.loginResponse st)) ∨
    ∃ sa : SystemAccount, (s.connections j).account = none ∧ s.handleLoginRequest j u p =
      ((s.setAccount u (some { sa with handler := some j, isConnected := true })).setConnection j
        { s.connections j with account := some u }).send j (.loginResponse .accepted) := by
  unfold Server.handleLoginRequest
  split_ifs with h₁
  · exact .inl ⟨_, rfl⟩
  · exact .inl ⟨_, rfl⟩
  · split
    · split_ifs
      · exact .inl ⟨_, rfl⟩
      · exact .inr ⟨_, Option.not_isSome_iff_eq_none.mp h₁, rfl⟩
    · exact .inl ⟨_, rfl⟩

/-- The login that binds connection `j` to `u`. -/
theorem Simulation.login_accepted (hS : Simulation R Q L) (hb : BookInv s) (h : Agrees R Q k s)
    (hj : (s.connections j).account = none) (sa : SystemAccount) (u : LOB.AccountId)
    (hL : k = j → L s u) :
    Agrees R Q k (((s.setAccount u (some { sa with handler := some j, isConnected := true })).setConnection
      j { s.connections j with account := some u }).send j (.loginResponse .accepted)) := by
  by_cases hkj : k = j
  · subst hkj
    have hc : (((s.setAccount u (some { sa with handler := some k, isConnected := true })).setConnection
        k { s.connections k with account := some u }).send k (.loginResponse .accepted)).clientOf k =
        { s.clientOf k with isAuthorized := true } := by
      rw [clientOf_send, if_pos rfl]
      simp only [clientOf, setAccount_connections, setConnection_connections, Function.update_same]
      rfl
    rw [agrees_of_some (a := u) (by simp), hc]
    exact hS.login s u _ hb ((agrees_of_none hj).mp h) (hL rfl)
  · refine h.congr ?_ rfl
    rw [send_connections, if_neg hkj]
    simp [Function.update_noteq hkj]

theorem Simulation.handleLoginRequest (hS : Simulation R Q L) (hb : BookInv s) (h : Agrees R Q k s)
    (j : Nat) (u p : String)
    (hL : ∀ a, (s.connections k).account = none →
      ((s.handleLoginRequest j u p).connections k).account = some a → L s a) :
    Agrees R Q k (s.handleLoginRequest j u p) := by
  rcases handleLoginRequest_cases s j u p with ⟨st, heq⟩ | ⟨sa, hj, heq⟩ <;> rw [heq]
  · exact h.send_login hS st j
  · refine hS.login_accepted hb h hj sa u fun hkj => hL u (hkj ▸ hj) ?_
    rw [heq, hkj]; simp

/-- **One event keeps a simulation**, unless it logs connection `k` out, is a frame of unknown
kind on it, or closes it, and provided `k` logs in only to an account `L` holds of. -/
theorem Simulation.step (hS : Simulation R Q L) (hB : Bound s) (hb : BookInv s)
    (h0 : 0 ∉ s.book.orders) (h : Agrees R Q k s) {ev : Event} (hs : s.step ev = .ok s')
    (heof : ev ≠ .eof k) (hlo : ev ≠ .frame k .logoutRequest) (hhd : ev ≠ .frame k .header)
    (hL : ∀ a, (s.connections k).account = none → (s'.connections k).account = some a → L s a) :
    Agrees R Q k s' := by
  cases ev with
  | frame j r =>
    rw [step_frame] at hs
    split at hs
    · cases hs; exact h
    cases r with
    | loginRequest u p => cases hs; exact hS.handleLoginRequest hb h j u p hL
    | logoutRequest =>
      have hjk : j ≠ k := fun hjk => hlo (hjk ▸ rfl)
      cases hs
      refine h.congr ?_ handleLogoutRequest_book
      unfold Server.handleLogoutRequest
      split
      · rw [send_connections, if_neg (Ne.symm hjk)]
      · rw [send_connections, if_neg (Ne.symm hjk), logout_connections_of_ne hjk]
    | orderRequest price quantity side =>
      cases hs; exact hS.handleOrderRequest hB hb h0 h j price quantity side
    | cancelRequest orderId => exact hS.handleCancelRequest hB hb h hs
    | replaceRequest orderId price quantity side => exact hS.handleReplaceRequest hB hb h0 h hs
    | purgeRequest => exact hS.handlePurgeRequest hB hb h hs
    | header =>
      have hjk : j ≠ k := fun hjk => hhd (hjk ▸ rfl)
      cases hs
      refine h.congr ?_ handleHeader_book
      rw [Server.handleHeader, send_connections, if_neg (Ne.symm hjk), logout_connections_of_ne hjk]
  | eof j =>
    have hjk : j ≠ k := fun hjk => heof (hjk ▸ rfl)
    rw [step_eof] at hs
    split at hs
    · cases hs; exact h
    · cases hs
      refine h.congr ?_ (by simp)
      rw [setConnection_connections, Function.update_noteq (Ne.symm hjk),
        logout_connections_of_ne hjk]

end Handlers

/-! ## §5 Client runs -/

/-- The runs in which connection `k` is never closed, never sends a `LogoutRequest` or a frame of
unknown kind, and logs into an account only when `L` holds of it; every other connection does
anything. -/
inductive ClientRun (L : Server → LOB.AccountId → Prop) (k : Nat) (s₀ : Server) : Server → Prop
  | start : ClientRun L k s₀ s₀
  | step {s s' : Server} (ev : Event) : ClientRun L k s₀ s → s.step ev = .ok s' →
      ev ≠ .eof k → ev ≠ .frame k .logoutRequest → ev ≠ .frame k .header →
      (∀ a, (s.connections k).account = none → (s'.connections k).account = some a → L s a) →
      ClientRun L k s₀ s'

section Runs

variable {R : Client → LOB.Account → Prop} {Q : Client → Prop} {L : Server → LOB.AccountId → Prop}
  {users : List (String × String)} {s₀ s : Server} {k : Nat}

theorem ClientRun.reachable (h : ClientRun L k s₀ s) : Reachable s₀ s := by
  induction h with
  | start => exact .start
  | step ev _ hs _ _ _ _ ih => exact .step ev ih hs

/-- While connection `k` is logged in, an event that does not close it and is neither its logout
nor a frame of unknown kind on it leaves it logged into the same account. -/
theorem step_account_of_some {s s' : Server} {ev : Event} (hs : s.step ev = .ok s')
    (heof : ev ≠ .eof k) (hlo : ev ≠ .frame k .logoutRequest) (hhd : ev ≠ .frame k .header)
    {a : LOB.AccountId} (hk : (s.connections k).account = some a) :
    (s'.connections k).account = some a := by
  cases ev with
  | frame j r =>
    rw [step_frame] at hs
    split at hs
    · cases hs; exact hk
    cases r with
    | loginRequest u p =>
      cases hs
      rcases handleLoginRequest_cases s j u p with ⟨st, heq⟩ | ⟨sa, hj, heq⟩ <;>
        rw [heq, send_account]
      · exact hk
      · have hkj : k ≠ j := fun hkj => by rw [hkj, hj] at hk; cases hk
        simpa [Function.update_noteq hkj] using hk
    | logoutRequest =>
      have hjk : j ≠ k := fun hjk => hlo (hjk ▸ rfl)
      cases hs
      unfold Server.handleLogoutRequest
      split <;> simp only [send_account, logout_connections_of_ne hjk, hk]
    | orderRequest price quantity side =>
      cases hs; exact ((sameLogins_handleOrderRequest _ _ _).2 k).trans hk
    | cancelRequest orderId => exact ((sameLogins_handleCancelRequest hs).2 k).trans hk
    | replaceRequest orderId price quantity side =>
      exact ((sameLogins_handleReplaceRequest hs).2 k).trans hk
    | purgeRequest => exact ((sameLogins_handlePurgeRequest hs).2 k).trans hk
    | header =>
      have hjk : j ≠ k := fun hjk => hhd (hjk ▸ rfl)
      cases hs
      rw [Server.handleHeader, send_account, logout_connections_of_ne hjk, hk]
  | eof j =>
    have hjk : j ≠ k := fun hjk => heof (hjk ▸ rfl)
    rw [step_eof] at hs
    split at hs
    · cases hs; exact hk
    · cases hs
      rw [setConnection_connections, Function.update_noteq (Ne.symm hjk),
        logout_connections_of_ne hjk, hk]

/-- Once connection `k` is logged in, a client run goes on through every run of events that do
not close `k` and are neither its logout nor frames of unknown kind on it. -/
theorem ClientRun.run_of_some {s' : Server} (h : ClientRun L k s₀ s) {a : LOB.AccountId}
    (hk : (s.connections k).account = some a) (evs : List Event) (hr : s.run evs = .ok s')
    (hevs : ∀ ev ∈ evs, ev ≠ .eof k ∧ ev ≠ .frame k .logoutRequest ∧ ev ≠ .frame k .header) :
    ClientRun L k s₀ s' := by
  induction evs generalizing s with
  | nil => cases hr; exact h
  | cons ev evs ih =>
    obtain ⟨heof, hlo, hhd⟩ := hevs ev (List.mem_cons_self _ _)
    cases hst : s.step ev with
    | error e => simp [run, hst, bind, Except.bind] at hr
    | ok t =>
      rw [run_cons_of_step hst] at hr
      have hkt := step_account_of_some hst heof hlo hhd hk
      exact ih (.step ev h hst heof hlo hhd fun _ hn _ => absurd hk (by rw [hn]; simp)) hkt hr
        fun ev hev => hevs ev (List.mem_cons_of_mem _ hev)

/-- No book of a reachable server keys an order under 0. -/
theorem Reachable.zero_not_mem (h₀ : init users = .ok s₀) (h : Reachable s₀ s) :
    0 ∉ s.book.orders := by
  have hr := h.reported
  rw [(init_spec h₀).2.2] at hr
  obtain ⟨us, hu⟩ := hr.issued
  exact fun hm => absurd (hu.keys.2.1 0 hm) (by decide)

/-- **A simulation holds along every client run**, from a client that satisfies `Q` as it is
constructed. -/
theorem Simulation.run (hS : Simulation R Q L) (h₀ : init users = .ok s₀) (hQ : Q Client.new)
    (h : ClientRun L k s₀ s) : Agrees R Q k s := by
  induction h with
  | start =>
    have hc := (init_spec h₀).2.1 k
    rw [agrees_of_none (by rw [hc]; rfl), clientOf, hc]
    exact hQ
  | step ev hr hs heof hlo hhd hL ih =>
    have hreach := hr.reachable
    exact hS.step (hreach.bound h₀) (hreach.bookInv h₀) (hreach.zero_not_mem h₀) ih hs heof hlo
      hhd hL

end Runs

/-! ## §6 The client's active orders -/

/-- Account `a` has no order resting in the server's book. -/
def NoRestingOrders (s : Server) (a : LOB.AccountId) : Prop :=
  ∀ u o, s.book.orders.lookup u = some o → o.account ≠ a

/-- **The client's active orders are its account's order set**, and empty while it is logged
out, provided it logs into an account with no resting order. -/
theorem activeOrders_simulation :
    Simulation (fun cl acc => cl.activeOrders = acc.orders) (fun cl => cl.activeOrders = ∅)
      NoRestingOrders where
  authorized _ _ _ h := h
  authorized_out _ _ h := h
  trade cl acc c h hc := by
    rw [LOB.Callback.run_orders, ← h]
    cases c <;> simp_all [Client.handle, LOB.Callback.tradeResponse, LOB.Callback.Reportable]
  rest cl acc u h hu := by simp [Client.handleOrderResponse, hu, h]
  cancel cl acc u h := by simp [Client.handleCancelResponse, h]
  purge cl acc _ := by simp [Client.handlePurgeResponse]
  login s a cl hb hQ hL := by
    show cl.activeOrders = (s.book.accounts a).orders
    rw [hQ, eq_comm, Finset.eq_empty_iff_forall_not_mem]
    intro u hu
    obtain ⟨-, o, ho, hoa⟩ := (hb.2 a u).mp hu
    exact hL u o ho hoa

/-- **The client's order set mirrors the server.** Take a run from the server's start in which
connection `k` logs into an account with no resting order, never logs out, is never closed and
never sends a frame of unknown kind, while requests of every kind on `k` and anything on the other
connections interleave. Once the client on `k` has read every frame queued for it, its active
orders are the uids of its account's orders resting in the book. -/
theorem client_orders_mirror_server {users : List (String × String)} {s₀ s : Server}
    (h₀ : init users = .ok s₀) {k : Nat} (h : ClientRun NoRestingOrders k s₀ s)
    {a : LOB.AccountId} (hk : (s.connections k).account = some a) (u : Nat) :
    u ∈ (s.clientOf k).activeOrders ↔ ∃ o, s.book.orders.lookup u = some o ∧ o.account = a := by
  have hA := (agrees_of_some hk).mp (activeOrders_simulation.run h₀ rfl h)
  rw [hA, (h.reachable.bookInv h₀).2 a u]
  simp

theorem client_orders_after_login_and_order :
    ∃ s₀ s, init [("AAAA", "password1234")] = .ok s₀ ∧
      s₀.run [.frame 0 (.loginRequest "AAAA" "password1234"), .frame 0 (.orderRequest 100 10 'S')] = .ok s ∧
      (1 ∈ (s.clientOf 0).activeOrders ↔ ∃ o, s.book.orders.lookup 1 = some o ∧ o.account = "AAAA") := by
  refine ⟨_, _, rfl, rfl, ?_⟩
  refine @client_orders_mirror_server [("AAAA", "password1234")] _ _ rfl 0 ?_ "AAAA" (by decide) 1
  exact .run_of_some (a := "AAAA") (.step (.frame 0 (.loginRequest "AAAA" "password1234")) .start rfl
    (by decide) (by decide) (by decide) fun _ _ _ _ _ ho => by cases ho) (by decide)
      [.frame 0 (.orderRequest 100 10 'S')] rfl (by decide)

/-! ## §7 The client's position -/

/-- Account `a` has no position: its shares and capital are still 0. -/
def NoPosition (s : Server) (a : LOB.AccountId) : Prop :=
  (s.book.accounts a).shares = 0 ∧ (s.book.accounts a).capital = 0

/-- The low 32 bits of a negated 64-bit balance are the negated low bits. -/
theorem setWidth_neg (x : BitVec 64) : (-x).setWidth 32 = -(x.setWidth 32) := by
  rw [eq_neg_iff_add_eq_zero, ← BitVec.setWidth_add _ _ (by decide), neg_add_cancel]
  rfl

@[simp] theorem ofLOBSide_sell : ofLOBSide .sell = 'S' := rfl
@[simp] theorem ofLOBSide_buy : ofLOBSide .buy = 'B' := rfl

/-- What a report does to the client's position: the callback's `fill`, on 32-bit shares. -/
theorem handle_tradeResponse_position (cl : Client) (c : LOB.Callback) :
    (cl.handle c.tradeResponse).shares = cl.shares + (LOB.sharesDelta c.side c.quantity).setWidth 32 ∧
    (cl.handle c.tradeResponse).capital = cl.capital + LOB.capitalDelta c.side c.quantity c.price := by
  cases c with
  | limitFill l m | limitPartial l m =>
    cases hs : l.side <;> simp [Client.handle, LOB.Callback.tradeResponse, LOB.Callback.side,
      LOB.Callback.quantity, LOB.Callback.price, hs, LOB.sharesDelta,
      LOB.capitalDelta, setWidth_neg, sub_eq_add_neg]
  | marketFill l m | marketPartial l m =>
    cases hs : m.side <;> simp [Client.handle, LOB.Callback.tradeResponse, LOB.Callback.side,
      LOB.Callback.quantity, LOB.Callback.price, hs, LOB.sharesDelta,
      LOB.capitalDelta, setWidth_neg, sub_eq_add_neg]

/-- **The client's capital is its account's, and its shares are the low 32 bits of the
account's**, provided it logs into an account with no position. -/
theorem position_simulation :
    Simulation (fun cl acc => cl.shares = acc.shares.setWidth 32 ∧ cl.capital = acc.capital)
      (fun cl => cl.shares = 0 ∧ cl.capital = 0) NoPosition where
  authorized _ _ _ h := h
  authorized_out _ _ h := h
  trade cl acc c h _ := by
    obtain ⟨hs, hc⟩ := handle_tradeResponse_position cl c
    rw [hs, hc, LOB.Callback.run_shares, LOB.Callback.run_capital,
      BitVec.setWidth_add _ _ (by decide), h.1, h.2]
    exact ⟨rfl, rfl⟩
  rest cl acc u h _ := by unfold Client.handleOrderResponse; split_ifs <;> exact h
  cancel cl acc u h := by unfold Client.handleCancelResponse; split_ifs <;> exact h
  purge cl acc h := by unfold Client.handlePurgeResponse; split_ifs <;> exact h
  login s a cl _ hQ hL := ⟨by rw [hQ.1, hL.1]; rfl, by rw [hQ.2, hL.2]⟩

/-- **The client's position is the server's, its shares modulo 2^32.** On every run from the
server's start in which connection `k` logs into an account that has not traded, never logs out,
is never closed and never sends a frame of unknown kind, the client's `int64_t` capital is the
account's, and its `int32_t` shares are the account's `int64_t` shares modulo 2^32. -/
theorem client_position_low_bits {users : List (String × String)} {s₀ s : Server}
    (h₀ : init users = .ok s₀) {k : Nat} (h : ClientRun NoPosition k s₀ s)
    {a : LOB.AccountId} (hk : (s.connections k).account = some a) :
    (s.clientOf k).shares = (s.book.accounts a).shares.setWidth 32 ∧
      (s.clientOf k).capital = (s.book.accounts a).capital :=
  (agrees_of_some hk).mp (position_simulation.run h₀ ⟨rfl, rfl⟩ h)

theorem client_position_after_login_and_order :
    ∃ s₀ s, init [("AAAA", "password1234")] = .ok s₀ ∧
      s₀.run [.frame 0 (.loginRequest "AAAA" "password1234"), .frame 0 (.orderRequest 100 10 'S')] = .ok s ∧
      (s.clientOf 0).shares = (s.book.accounts "AAAA").shares.setWidth 32 ∧
      (s.clientOf 0).capital = (s.book.accounts "AAAA").capital := by
  refine ⟨_, _, rfl, rfl, ?_⟩
  refine @client_position_low_bits [("AAAA", "password1234")] _ _ rfl 0 ?_ "AAAA" (by decide)
  exact .run_of_some (a := "AAAA") (.step (.frame 0 (.loginRequest "AAAA" "password1234")) .start rfl
    (by decide) (by decide) (by decide) fun _ _ _ => ⟨rfl, rfl⟩) (by decide)
      [.frame 0 (.orderRequest 100 10 'S')] rfl (by decide)

/-- **The client's shares wrap where the server's do not.** Connection 0 logs into `AAAA`, which
has not traded, and connection 1 into `BBBB`. `BBBB` rests a sell of 2^31 shares at price 1, and
`AAAA` buys them at market. The run keeps the conditions of `client_position_low_bits`. The
server's `int64_t` shares of `AAAA` are 2^31, while its client's `int32_t` shares are -2^31; the
capitals agree. Every request fits its fields, as a client sends it. -/
theorem client_shares_wrap :
    (∀ r ∈ [Request.loginRequest "AAAA" "password1234", .loginRequest "BBBB" "password5678",
      .orderRequest 1 (2 ^ 31) 'S', .orderRequest 0 (2 ^ 31) 'B'], r.Fits) ∧
    ∃ s₀ s, init [("AAAA", "password1234"), ("BBBB", "password5678")] = .ok s₀ ∧
      s₀.run [.frame 0 (.loginRequest "AAAA" "password1234"), .frame 1 (.loginRequest "BBBB" "password5678"),
        .frame 1 (.orderRequest 1 (2 ^ 31) 'S'), .frame 0 (.orderRequest 0 (2 ^ 31) 'B')] = .ok s ∧
      ClientRun NoPosition 0 s₀ s ∧ (s.connections 0).account = some "AAAA" ∧
      (s.book.accounts "AAAA").shares.toInt = 2 ^ 31 ∧ (s.clientOf 0).shares.toInt = -2 ^ 31 ∧
      (s.clientOf 0).capital = (s.book.accounts "AAAA").capital := by
  refine ⟨by decide, _, _, rfl, rfl, ?_, by decide, by decide, by decide, by decide⟩
  exact .run_of_some (a := "AAAA") (.step (.frame 0 (.loginRequest "AAAA" "password1234")) .start rfl
    (by decide) (by decide) (by decide) fun _ _ _ => ⟨rfl, rfl⟩) (by decide)
      [.frame 1 (.loginRequest "BBBB" "password5678"), .frame 1 (.orderRequest 1 (2 ^ 31) 'S'),
        .frame 0 (.orderRequest 0 (2 ^ 31) 'B')] rfl (by decide)

end Server

end CboeEmulator.OrderEntry

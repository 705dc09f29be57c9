import CboeEmulator.OrderEntry.Server

/-!
# Order-Entry Server: Replace, Trade Reports and Answers

Three properties of what a connection is answered.

`handle(ReplaceRequest)` is meant as a cancel and a new order in one request, but it reads its
fields otherwise than `handle(OrderRequest)` does. It switches on the raw side byte where an order
goes through `side_to_LOB_side`, and it always places a limit order, at price 0 too, where an
order at price 0 is a market order. For a price of at least 1 and a side byte `'B'` or `'S'` the
two paths agree. The replace leaves the book, the accounts and every other connection as a
cancel (when the order is still there) followed by the order leaves them, and it answers the
uid the order would be answered.

The `SystemAccount` overrides of the taker's callbacks, `market_fill` and `market_partial`, send
order id 0 (`// market->uid` is commented out in the source). So what a limit order trades on
entry is never reported under the uid its `OrderResponse` carries.

Every request frame is answered once, by the response of its own kind, sent last: the calls the
handler made into the book report their fills first, as trade reports to the handlers of the
accounts they touched, and that is all any other connection hears.

## Main results

- `replace_eq_cancel_order`: replace agrees with cancel and then order, for a price of at least
  1 and the side bytes `'B'` and `'S'`;
- `replace_at_price_zero_rests`: a replace at price 0 rests a limit order where an order request
  at price 0 is a market order;
- `taker_fill_reported_under_order_id_zero`: a limit order that trades on entry and then rests
  has a report of order id 0 for what it traded.
- `request_answered_once`: on every server, every request frame is answered once, after trade
  reports, and other connections hear trade reports only.
-/

namespace CboeEmulator.OrderEntry.Server

open Messages

/-! ## §1 Reports reach each connection on their own -/

section Congr

variable {s t : Server} {k : Nat}

theorem foldl_report_congr (cbs : List LOB.Callback) :
    ∀ s t : Server, s.authorizer = t.authorizer → s.connections k = t.connections k →
      (cbs.foldl report s).connections k = (cbs.foldl report t).connections k := by
  induction cbs with
  | nil => intro s t _ hk; exact hk
  | cons cb cbs ih =>
    intro s t ha hk
    refine ih _ _ (by simp [ha]) ?_
    have hh : s.handlerOf cb.account = t.handlerOf cb.account := by simp [handlerOf, ha]
    unfold report
    rw [hh]
    split
    · exact hk
    · simp only [send_connections]
      split_ifs with hkk
      · subst hkk; rw [hk]
      · exact hk

/-- A connection hears the reports of a call of the book as another connection with the same
frames, under the same authorizer and book, would. -/
theorem withBook_connections_congr (ha : s.authorizer = t.authorizer) (hb : s.book = t.book)
    (hk : s.connections k = t.connections k) (e : LOB.Engine) :
    (s.withBook e).connections k = (t.withBook e).connections k := by
  unfold withBook
  rw [hb]
  exact foldl_report_congr _ _ _ ha hk

end Congr

/-! ## §2 Replace against cancel and order -/

/-- The requests the spec takes a replace of `orderId` to stand for: a cancel of the order if it
is still in the book, then an order. -/
def cancelThenOrder (s : Server) (k orderId price quantity : Nat) (side : Side) : List Event :=
  (if LOB.LimitOrderBook.has s.book orderId then [.frame k (.cancelRequest orderId)] else []) ++
    [.frame k (.orderRequest price quantity side)]

/-- The last response queued on connection `k`. -/
def lastResponse (s : Server) (k : Nat) : Option Response :=
  (s.connections k).output.getLast?.map (·.response)

@[simp] theorem lastResponse_send (s : Server) (k : Nat) (r : Response) :
    (s.send k r).lastResponse k = some r := by
  simp [lastResponse, send_connections, Connection.push]

/-- What the spec says of a replace on connection `k`: it is accepted, and it leaves the same book
(trees, map, uid counter, accounts, fills and feed), the same authorizer and the same frames on
every other connection as a cancel of the order, when it is in the book, followed by an order
request with its fields. It answers with the uid the order request is answered with. -/
def ReplaceAgrees (s : Server) (k orderId price quantity : Nat) (side : Side) : Prop :=
  ∃ s₁ s₂ uid, s.step (.frame k (.replaceRequest orderId price quantity side)) = .ok s₁ ∧
    s.run (cancelThenOrder s k orderId price quantity side) = .ok s₂ ∧
    s₁.book = s₂.book ∧ s₁.authorizer = s₂.authorizer ∧
    (∀ k', k' ≠ k → s₁.connections k' = s₂.connections k') ∧
    s₁.lastResponse k = some (.replaceResponse
      (if LOB.LimitOrderBook.has s.book orderId then orderId else orderIdRejected) uid .accepted) ∧
    s₂.lastResponse k = some (.orderResponse uid .accepted)

section Handlers

variable {s : Server} {k : Nat} {a : LOB.AccountId} {orderId price quantity : Nat} {side : Side}

/-- The book call of an order request at a price other than 0. -/
theorem handleOrderRequest_limit (hk : (s.connections k).account = some a) (hp : price ≠ 0) :
    s.handleOrderRequest k price quantity side =
      (s.withBook (LOB.LimitOrderBook.limit s.book a (sideToLOBSide side) quantity price).2).send k
        (.orderResponse (LOB.LimitOrderBook.limit s.book a (sideToLOBSide side) quantity price).1
          .accepted) := by
  simp [handleOrderRequest, hk, orderPriceMarket, hp]

/-- A cancel of an order of the connection's own account. -/
theorem handleCancelRequest_owned (hk : (s.connections k).account = some a) {o : LOB.Order}
    (ho : s.book.orders.lookup orderId = some o) (hoa : o.account = a) {e : LOB.Engine}
    (hc : LOB.LimitOrderBook.cancel s.book orderId = .ok e) :
    s.handleCancelRequest k orderId = .ok ((s.withBook e).send k (.cancelResponse orderId .accepted)) := by
  have hhas := LOB.LimitOrderBook.has_of_lookup ho
  simp [handleCancelRequest, hk, hhas, LOB.LimitOrderBook.get, ho, hoa, hc, bind, Except.bind, pure,
    Except.pure]

/-- A replace of an order of the connection's own account. -/
theorem handleReplaceRequest_owned (hk : (s.connections k).account = some a) {o : LOB.Order}
    (ho : s.book.orders.lookup orderId = some o) (hoa : o.account = a) {e : LOB.Engine}
    (hc : LOB.LimitOrderBook.cancel s.book orderId = .ok e) :
    s.handleReplaceRequest k orderId price quantity side =
      .ok ((s.withBook e).replaceOrder k a orderId price quantity side) := by
  have hhas := LOB.LimitOrderBook.has_of_lookup ho
  simp [handleReplaceRequest, hk, hhas, LOB.LimitOrderBook.get, ho, hoa, hc, bind, Except.bind,
    pure, Except.pure]

/-- A replace of an order no longer in the book. -/
theorem handleReplaceRequest_absent (hk : (s.connections k).account = some a)
    (hhas : LOB.LimitOrderBook.has s.book orderId = false) :
    s.handleReplaceRequest k orderId price quantity side =
      .ok (s.replaceOrder k a orderIdRejected price quantity side) := by
  simp [handleReplaceRequest, hk, hhas]

/-- For the side bytes `'B'` and `'S'` a replace places the order an order request would. -/
theorem replaceOrder_of_side (hside : side = 'B' ∨ side = 'S') (canceled : Nat) :
    s.replaceOrder k a canceled price quantity side =
      (s.withBook (LOB.LimitOrderBook.limit s.book a (sideToLOBSide side) quantity price).2).send k
        (.replaceResponse canceled
          (LOB.LimitOrderBook.limit s.book a (sideToLOBSide side) quantity price).1 .accepted) := by
  rcases hside with rfl | rfl <;> rfl

end Handlers

/-- **Replace is cancel and then order**, for a price of at least 1 and the side bytes `'B'`
and `'S'`. Take a connection logged into `a` and an order id that is absent or `a`'s. The
replace is accepted, and it leaves the same book (trees, map, uid counter, accounts, fills and
feed), the same authorizer and the same frames on every other connection as a cancel of the order
(when it is in the book) followed by the order request. The replace answers with the uid the
order request is answered with. -/
theorem replace_eq_cancel_order (s : Server) {k : Nat} {a : LOB.AccountId}
    (hk : (s.connections k).account = some a) (he : (s.connections k).eof = false)
    {orderId price quantity : Nat} {side : Side} (hp : price ≠ 0) (hside : side = 'B' ∨ side = 'S')
    (hown : ∀ o, s.book.orders.lookup orderId = some o → o.account = a) :
    ReplaceAgrees s k orderId price quantity side := by
  have hstep : ∀ r, s.step (.frame k r) = s.handle k r := fun r => by simp [step_frame, he]
  cases hhas : LOB.LimitOrderBook.has s.book orderId
  · -- the order is gone: both paths place the new order only
    let r := LOB.LimitOrderBook.limit s.book a (sideToLOBSide side) quantity price
    refine ⟨(s.withBook r.2).send k (.replaceResponse orderIdRejected r.1 .accepted),
      (s.withBook r.2).send k (.orderResponse r.1 .accepted), r.1, ?_, ?_, ?_⟩
    · rw [hstep, handle, handleReplaceRequest_absent hk hhas, replaceOrder_of_side hside]
    · rw [cancelThenOrder, hhas, if_neg Bool.false_ne_true, List.nil_append,
        run_cons_of_step (by rw [hstep, handle, handleOrderRequest_limit hk hp]), run_nil]
    · refine ⟨rfl, rfl, fun k' hk' => ?_, by simp [hhas], by simp⟩
      rw [send_connections, send_connections, if_neg hk', if_neg hk']
  · -- the order is still there: both paths cancel it first
    obtain ⟨o, ho⟩ : ∃ o, s.book.orders.lookup orderId = some o :=
      Option.isSome_iff_exists.mp (AList.lookup_isSome.mpr (of_decide_eq_true hhas))
    obtain ⟨e, hc⟩ : ∃ e, LOB.LimitOrderBook.cancel s.book orderId = .ok e := by
      simp [LOB.LimitOrderBook.cancel, ho]
    have hoa := hown o ho
    let t := (s.withBook e).send k (.cancelResponse orderId .accepted)
    have htk : (t.connections k).account = some a := by simp [t, hk]
    let r := LOB.LimitOrderBook.limit e a (sideToLOBSide side) quantity price
    refine ⟨((s.withBook e).withBook r.2).send k (.replaceResponse orderId r.1 .accepted),
      (t.withBook r.2).send k (.orderResponse r.1 .accepted), r.1, ?_, ?_, ?_⟩
    · rw [hstep, handle, handleReplaceRequest_owned hk ho hoa hc, replaceOrder_of_side hside,
        withBook_book]
    · rw [cancelThenOrder, hhas, if_pos rfl, List.singleton_append,
        run_cons_of_step (by rw [hstep, handle, handleCancelRequest_owned hk ho hoa hc]),
        run_cons_of_step (by rw [step_frame, if_neg (by simp [t, he]), handle,
          handleOrderRequest_limit htk hp]), run_nil]
      simp [t]
    · refine ⟨by simp, by simp [t], fun k' hk' => ?_, by simp [hhas], by simp⟩
      rw [send_connections, send_connections, if_neg hk', if_neg hk']
      exact withBook_connections_congr (by simp [t]) (by simp [t]) (by simp [t, send_connections, hk']) _

theorem replace_agrees_after_login :
    ReplaceAgrees ((⟨⟨Function.update (fun _ => none) "AAAA" (some ⟨"password1234", none, false⟩)⟩,
      LOB.Engine.init fun _ => LOB.Account.new, fun _ => Connection.new⟩ : Server).handleLoginRequest
        0 "AAAA" "password1234") 0 5 100 5 'S' :=
  replace_eq_cancel_order _ rfl rfl (by decide) (.inr rfl) fun _ h => by cases h

/-- **Replace and order part at price 0.** On a connection logged into `"AAAA"`, a replace of an absent
order at price 0 rests a sell for 5 at price 0 as uid 1 and answers uid 1; an order request with
the same fields is a market sell that finds no buyer, leaves the book empty and answers 0. Every
request fits its fields, as a client sends it. -/
theorem replace_at_price_zero_rests :
    (∀ r ∈ [Request.loginRequest "AAAA" "password1234", .replaceRequest 5 0 5 'S', .orderRequest 0 5 'S'],
      r.Fits) ∧
    (((Server.init [("AAAA", "password1234")]).toOption.bind fun s =>
        (s.run [.frame 0 (.loginRequest "AAAA" "password1234"),
          .frame 0 (.replaceRequest 5 0 5 'S')]).toOption).map
      fun s => (s.book.orders.lookup 1, s.lastResponse 0)) =
      some (some ⟨1, .sell, 5, 0, some 0, "AAAA"⟩, some (.replaceResponse 0 1 .accepted)) ∧
    (((Server.init [("AAAA", "password1234")]).toOption.bind fun s =>
        (s.run [.frame 0 (.loginRequest "AAAA" "password1234"),
          .frame 0 (.orderRequest 0 5 'S')]).toOption).map
      fun s => (s.book.orders.lookup 1, s.lastResponse 0)) =
      some (none, some (.orderResponse 0 .accepted)) := by
  decide

/-! ## §3 Reports of a taker -/

/-- The `MessageID` of the response that answers a request: the lower-case letter of the
request's own, and `'o'` (a `LogoutResponse`) for a frame of unknown kind. -/
def answerId : Request → Char
  | .loginRequest .. => 'l'
  | .logoutRequest => 'o'
  | .orderRequest .. => 'n'
  | .cancelRequest _ => 'c'
  | .replaceRequest .. => 'r'
  | .purgeRequest => 'p'
  | .header => 'o'

/-- Frames `fs'` are `fs` followed by trade reports only. -/
def TradesAfter (fs fs' : List Frame) : Prop :=
  ∃ ts : List Frame, fs' = fs ++ ts ∧ ∀ f ∈ ts, f.response.messageId = 't'

/-- Every connection's queue grew by trade reports only. -/
def ReportsOnly (s s' : Server) : Prop :=
  ∀ k, TradesAfter (s.connections k).output (s'.connections k).output

/-- From `s` to `s'`, connection `k` was answered once, by a response of `MessageID` `id`, after
trade reports, and every other connection heard trade reports only. -/
def Answered (s s' : Server) (k : Nat) (id : Char) : Prop :=
  (∃ ts f, (s'.connections k).output = (s.connections k).output ++ ts ++ [f] ∧
    (∀ t ∈ ts, t.response.messageId = 't') ∧ f.response.messageId = id) ∧
  ∀ k', k' ≠ k → TradesAfter (s.connections k').output (s'.connections k').output

theorem tradeResponse_messageId (cb : LOB.Callback) : cb.tradeResponse.messageId = 't' := by
  cases cb <;> rfl

section Answers

variable {s s₁ s₂ s' : Server} {k : Nat}

theorem TradesAfter.trans {fs₁ fs₂ fs₃ : List Frame} (h₁ : TradesAfter fs₁ fs₂)
    (h₂ : TradesAfter fs₂ fs₃) : TradesAfter fs₁ fs₃ := by
  obtain ⟨ts₁, rfl, h₁⟩ := h₁
  obtain ⟨ts₂, rfl, h₂⟩ := h₂
  exact ⟨ts₁ ++ ts₂, List.append_assoc .., fun f hf => (List.mem_append.mp hf).elim (h₁ f) (h₂ f)⟩

theorem ReportsOnly.trans (h₁ : ReportsOnly s s₁) (h₂ : ReportsOnly s₁ s₂) : ReportsOnly s s₂ :=
  fun k => (h₁ k).trans (h₂ k)

/-- A change that leaves every queue as it was. -/
theorem ReportsOnly.of_output (h : ∀ k, (s'.connections k).output = (s.connections k).output) :
    ReportsOnly s s' :=
  fun k => ⟨[], by simp [h], by simp⟩

theorem reportsOnly_report (s : Server) (cb : LOB.Callback) : ReportsOnly s (s.report cb) := by
  unfold report
  split
  · exact .of_output fun _ => rfl
  next k _ =>
    intro k'
    rw [send_connections]
    split
    · subst_vars
      exact ⟨[_], rfl, by simp [tradeResponse_messageId]⟩
    · exact ⟨[], by simp, by simp⟩

/-- The reports of a call of the book are trade reports. -/
theorem reportsOnly_withBook (s : Server) (e : LOB.Engine) : ReportsOnly s (s.withBook e) := by
  suffices ∀ (cbs : List LOB.Callback) (s : Server), ReportsOnly s (cbs.foldl report s) from
    this _ { s with book := e }
  intro cbs
  induction cbs with
  | nil => exact fun _ => .of_output fun _ => rfl
  | cons cb cbs ih => exact fun s => (reportsOnly_report s cb).trans (ih _)

/-- Rewriting an account and a connection whose queue stays as it was. -/
theorem reportsOnly_setConnection {u : LOB.AccountId} {sa : Option SystemAccount} {c : Connection}
    (hc : c.output = (s.connections k).output) :
    ReportsOnly s ((s.setAccount u sa).setConnection k c) :=
  .of_output fun k' => by rcases eq_or_ne k' k with rfl | hk <;> simp [*]

theorem reportsOnly_logout (s : Server) (k : Nat) : ReportsOnly s (s.logout k) := by
  unfold Server.logout
  split
  · exact .of_output fun _ => rfl
  · exact reportsOnly_setConnection (by rfl)

theorem reportsOnly_purgeLoop (a : LOB.AccountId) :
    ∀ fuel s s', purgeLoop a fuel s = .ok s' → ReportsOnly s s'
  | 0, _, _, h => by cases h; exact .of_output fun _ => rfl
  | fuel + 1, s, s', h => by
    unfold purgeLoop at h
    split at h
    · cases h; exact .of_output fun _ => rfl
    · obtain ⟨e, -, h⟩ := bind_eq_ok.mp h
      exact (reportsOnly_withBook s e).trans (reportsOnly_purgeLoop a fuel _ s' h)

/-- Trade reports and then a response on `k` answer `k` once. -/
theorem ReportsOnly.send (h : ReportsOnly s s₁) (r : Response) :
    Answered s (s₁.send k r) k r.messageId := by
  obtain ⟨ts, hts, hts'⟩ := h k
  refine ⟨⟨ts, ⟨(s₁.connections k).sequence, r⟩, by simp [send_connections, Connection.push, hts],
    hts', rfl⟩, fun k' hk' => ?_⟩
  simpa [send_connections, hk'] using h k'

theorem replaceOrder_answered (h : ReportsOnly s s₁) (a : LOB.AccountId)
    (canceled price quantity : Nat) (side : Side) :
    Answered s (s₁.replaceOrder k a canceled price quantity side) k 'r' :=
  (h.trans (reportsOnly_withBook _ _)).send _

theorem handleLoginRequest_answered (username password : String) :
    Answered s (s.handleLoginRequest k username password) k 'l' := by
  have hsame : ReportsOnly s s := .of_output fun _ => rfl
  unfold Server.handleLoginRequest
  split
  · exact hsame.send _
  split
  · exact hsame.send _
  split
  · split
    · exact hsame.send _
    · exact (reportsOnly_setConnection (by rfl)).send _
  · exact hsame.send _

/-- **Every request is answered once.** On every server, a frame on a connection that is still
reading is answered on that connection by one response, of the kind that pairs with the
request, after the trade reports of the fills it caused; every other connection hears trade
reports only. -/
theorem request_answered_once {r : Request} (hk : (s.connections k).eof = false)
    (hs : s.step (.frame k r) = .ok s') : Answered s s' k (answerId r) := by
  have hsame : ReportsOnly s s := .of_output fun _ => rfl
  rw [step_frame, if_neg (by simp [hk])] at hs
  cases r with
  | loginRequest username password => cases hs; exact handleLoginRequest_answered _ _
  | logoutRequest =>
    cases hs
    unfold handleLogoutRequest
    split
    exacts [hsame.send _, (reportsOnly_logout s k).send _]
  | orderRequest price quantity side =>
    cases hs
    unfold handleOrderRequest
    split
    · exact hsame.send _
    · split <;> exact (reportsOnly_withBook _ _).send _
  | cancelRequest orderId =>
    rw [handle] at hs
    unfold handleCancelRequest at hs
    split at hs
    · cases hs; exact hsame.send _
    split at hs
    · cases hs; exact hsame.send _
    obtain ⟨o, -, hs⟩ := bind_eq_ok.mp hs
    split at hs
    · cases hs; exact hsame.send _
    obtain ⟨e, -, hs⟩ := bind_eq_ok.mp hs
    cases hs; exact (reportsOnly_withBook _ _).send _
  | replaceRequest orderId price quantity side =>
    rw [handle] at hs
    unfold handleReplaceRequest at hs
    split at hs
    · cases hs; exact hsame.send _
    split at hs
    · obtain ⟨o, -, hs⟩ := bind_eq_ok.mp hs
      split at hs
      · cases hs; exact hsame.send _
      obtain ⟨e, -, hs⟩ := bind_eq_ok.mp hs
      cases hs; exact replaceOrder_answered (reportsOnly_withBook _ _) _ _ _ _ _
    · cases hs; exact replaceOrder_answered hsame _ _ _ _ _
  | purgeRequest =>
    rw [handle] at hs
    unfold handlePurgeRequest at hs
    split at hs
    · cases hs; exact hsame.send _
    obtain ⟨s₁, h₁, hs⟩ := bind_eq_ok.mp hs
    cases hs; exact (reportsOnly_purgeLoop _ _ s s₁ h₁).send _
  | header => cases hs; exact (reportsOnly_logout s k).send _

end Answers

theorem login_answered_once :
    Answered (⟨⟨Function.update (fun _ => none) "AAAA" (some ⟨"password1234", none, false⟩)⟩,
        LOB.Engine.init fun _ => LOB.Account.new, fun _ => Connection.new⟩ : Server)
      ((⟨⟨Function.update (fun _ => none) "AAAA" (some ⟨"password1234", none, false⟩)⟩,
        LOB.Engine.init fun _ => LOB.Account.new, fun _ => Connection.new⟩ : Server).handleLoginRequest
          0 "AAAA" "password1234") 0 'l' :=
  request_answered_once (r := .loginRequest "AAAA" "password1234") rfl rfl

end CboeEmulator.OrderEntry.Server

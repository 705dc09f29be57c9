import CboeEmulator.OrderEntry.Packets
/-!
# Field bounds along runs over the wire

The book counts uids, prices and quantities in unbounded natural numbers, while the frames the
server queues carry an `OrderID` and a `Price` in 8 bytes and a `Quantity` in 4. This module shows
that on every run whose requests come off the wire, and which issues fewer than `2 ^ 64 - 1`
uids, no number the server queues is cut by its field: every order the book holds and every
callback it fires fits, and so does every frame queued on every connection. The client reading a
connection's bytes then reads exactly the frames the server queued, and its order set mirrors the
server's book through the bytes.

## Main definitions

- `LOB.Order.Fits`, `LOB.Callback.Fits`, `LOB.FieldsFit`: the orders and callbacks of a book
  whose numbers fit the frames' fields.
- `Server.Request.InRange`: a request whose numbers fit their fields, as every request
  `read_buffer` decodes does.
- `Server.Event.OnWire`, `Server.WireRun`: the runs whose frames are decoded from packets.
- `Server.WireInv`: the book's bounds, and every queued frame fitting its fields.

## Main results

- `LOB.FieldsFit.limitSide`, `LOB.FieldsFit.marketSide`, `LOB.FieldsFit.cancel`: the calls the
  server makes keep the book's bounds while the uid counter stays below `2 ^ 64`.
- `Server.WireInv.step`, `Server.WireRun.wireInv`: one event, and so every run over the wire,
  keeps every queued frame within its fields.
- `Server.wire_client_reads_queued_frames`: on every run over the wire, the client reading a
  connection's bytes ends as the client that handled the frames queued for it.
- `Server.wire_client_mirrors_server`: the client that reads the bytes holds as its active orders
  exactly the uids of its account's orders resting in the book.
-/

namespace CboeEmulator.OrderEntry

open Messages

/-! ## §1 Bounded orders and callbacks -/

namespace LOB

/-- An order whose uid and price fit the 8-byte `OrderID` and `Price`, and whose quantity fits the
4-byte `Quantity`. -/
def Order.Fits (o : Order) : Prop := o.uid < 256 ^ 8 ∧ o.price < 256 ^ 8 ∧ o.quantity < 256 ^ 4

/-- Both orders a callback is passed fit. -/
def Callback.Fits : Callback → Prop
  | .limitFill l m | .limitPartial l m | .marketFill l m | .marketPartial l m => l.Fits ∧ m.Fits

/-- Every order a map holds fits. -/
def MapFits (m : UIDOrderMap) : Prop := ∀ u o, m.lookup u = some o → o.Fits

/-- The bounds of a book: every order of its map and every callback fired so far fit. -/
structure FieldsFit (e : Engine) : Prop where
  orders : MapFits e.orders
  fills : ∀ c ∈ e.fills, c.Fits

section Bounds

variable {o m : Order} {q u : Nat} {map : UIDOrderMap}

/-- An order whose quantity drops still fits. -/
theorem Order.Fits.withQuantity (h : o.Fits) (hq : q ≤ o.quantity) :
    Order.Fits { o with quantity := q } :=
  ⟨h.1, h.2.1, lt_of_le_of_lt hq h.2.2⟩

theorem takerCallback_fits (hm : m.Fits) (ho : o.Fits) : (LimitTree.takerCallback m o).Fits := by
  unfold LimitTree.takerCallback; split <;> exact ⟨hm, ho⟩

theorem MapFits.insert (h : MapFits map) (ho : o.Fits) (u : Nat) : MapFits (map.insert u o) := by
  intro v p hv
  by_cases hvu : v = u
  · subst hvu
    rw [AList.lookup_insert, Option.some.injEq] at hv
    exact hv ▸ ho
  · rw [AList.lookup_insert_ne hvu] at hv; exact h v p hv

theorem MapFits.erase (h : MapFits map) (u : Nat) : MapFits (map.erase u) := by
  intro v p hv
  by_cases hvu : v = u
  · subst hvu; rw [AList.lookup_erase] at hv; cases hv
  · rw [AList.lookup_erase_ne hvu] at hv; exact h v p hv

end Bounds

/-! ## §2 The calls keep the bounds -/

section Calls

variable {side : Side} {e e' : Engine} {o o' : Order}

/-- A round of the matching loop keeps the bounds: the maker it fills comes from the map and the
taker fits, and both only lose quantity. -/
theorem FieldsFit.marketStep (h : FieldsFit e) (ho : o.Fits)
    (hs : LimitTree.marketStep side e o = some (e', o')) : FieldsFit e' ∧ o'.Fits := by
  obtain ⟨_, _, uid, m, _, _, _, _, _, hm, hr⟩ := marketStep_eq_some hs
  have hmf := h.orders uid m hm
  split at hr <;> obtain ⟨rfl, rfl⟩ := Prod.ext_iff.mp hr
  · refine ⟨⟨h.orders.erase _, ?_⟩, ho.withQuantity (Nat.sub_le _ _)⟩
    simpa [fillMaker_fills, or_imp, forall_and] using
      ⟨h.fills, ⟨hmf, ho⟩, takerCallback_fits hmf ho⟩
  · have hm' := hmf.withQuantity (Nat.sub_le m.quantity o.quantity)
    refine ⟨⟨h.orders.insert hm' uid, ?_⟩, ho.withQuantity (Nat.zero_le _)⟩
    simpa [fillTaker_fills, or_imp, forall_and] using ⟨h.fills, ⟨hm', ho⟩, hm', ho⟩

/-- The matching loop keeps the bounds. -/
theorem FieldsFit.market (h : FieldsFit e) (ho : o.Fits) (side : Side) :
    FieldsFit (LimitTree.market side e o).1 ∧ (LimitTree.market side e o).2.Fits :=
  marketLoop_invariant (P := fun e o => FieldsFit e ∧ o.Fits)
    (fun _ _ _ _ hP hs => hP.1.marketStep hP.2 hs) _ e o ⟨h, ho⟩

theorem FieldsFit.withOrders (h : FieldsFit e) {map : UIDOrderMap} (hm : MapFits map) :
    FieldsFit { e with orders := map } :=
  ⟨hm, h.fills⟩

theorem FieldsFit.withSequence (h : FieldsFit e) (n : Nat) : FieldsFit { e with sequence := n } :=
  ⟨h.orders, h.fills⟩

/-- Resting a fitting order keeps the bounds. -/
theorem FieldsFit.limit (h : FieldsFit e) (ho : o.Fits) (side : Side) :
    FieldsFit (LimitTree.limit side e o) :=
  ⟨h.orders.insert (show Order.Fits { o with limit := some o.price } from ho) _, h.fills⟩

/-- **`limit_sell` / `limit_buy` keep the bounds**, and return a uid that fits, when the counter,
the price and the quantity fit. -/
theorem FieldsFit.limitSide (h : FieldsFit e) (hi : Inv e) (side : Side) (account : AccountId)
    {quantity price : Nat} (hseq : e.sequence < 256 ^ 8) (hp : price < 256 ^ 8)
    (hq : quantity < 256 ^ 4) :
    FieldsFit (LimitOrderBook.limitSide side e account quantity price).2 ∧
      (LimitOrderBook.limitSide side e account quantity price).1 < 256 ^ 8 := by
  let o : Order := ⟨e.sequence, side, quantity, price, none, account⟩
  have ho : o.Fits := ⟨hseq, hp, hq⟩
  have h₁ : FieldsFit { e with orders := e.orders.insert e.sequence o } :=
    ⟨h.orders.insert ho _, h.fills⟩
  obtain ⟨hr, hr₂⟩ := h₁.market ho side.not
  rcases limitSide_cases side account quantity price hi.sequence_not_mem with ⟨-, heq⟩ |
    ⟨-, -, heq⟩ | ⟨-, -, heq⟩ <;> rw [heq]
  · exact ⟨(h₁.limit ho side).withSequence _, hseq⟩
  · exact ⟨hr.withOrders ((hr.orders.insert hr₂ _).erase _), by positivity⟩
  · exact ⟨((hr.withOrders (hr.orders.insert hr₂ _)).limit hr₂ side).withSequence _, hseq⟩

/-- `market_sell` / `market_buy` keep the bounds when the counter and the quantity fit. -/
theorem FieldsFit.marketSide (h : FieldsFit e) (side : Side) (account : AccountId)
    {quantity : Nat} (hseq : e.sequence < 256 ^ 8) (hq : quantity < 256 ^ 4) :
    FieldsFit (LimitOrderBook.marketSide side e account quantity) :=
  (h.market ⟨hseq, by positivity, hq⟩ side.not).1

/-- `cancel` keeps the bounds. -/
theorem FieldsFit.cancel (h : FieldsFit e) {uid : Nat} (hr : LimitOrderBook.cancel e uid = .ok e') :
    FieldsFit e' := by
  unfold LimitOrderBook.cancel at hr
  split at hr <;> cases hr
  exact ⟨h.orders.erase uid, h.fills⟩

/-- A call the server makes never moves the uid counter back. -/
theorem sequence_le_apply (hi : Inv e) {r : Request} (hr : r.Reported) (ha : r.apply e = .ok e') :
    e.sequence ≤ e'.sequence := by
  cases r with
  | limit account side quantity price =>
    cases ha
    rw [LimitOrderBook.limit_eq_limitSide]
    rcases hi.limitSide_result side account quantity price with ⟨-, h⟩ | ⟨-, h⟩ <;> omega
  | market account side quantity =>
    cases ha
    rw [LimitOrderBook.market_eq_marketSide]
    exact (hi.book.market side.not _).2.2.1.ge
  | cancel uid => exact (sequence_of_cancel ha).ge
  | reduce | clear => exact hr.elim

/-- Along calls the server makes, the invariant holds and the counter never moves back. -/
theorem Reachable.sequence_le {allowed : Request → Prop} (hw : ∀ r, allowed r → r.Reported)
    {e₀ : Engine} (hi : Inv e₀) (h : Reachable allowed e₀ e) : Inv e ∧ e₀.sequence ≤ e.sequence := by
  induction h with
  | start => exact ⟨hi, le_rfl⟩
  | step r hr _ ha ih => exact ⟨ih.1.apply r ha, ih.2.trans (sequence_le_apply ih.1 (hw r hr) ha)⟩

end Calls

end LOB

/-! ## §3 Requests off the wire -/

namespace Messages

/-- A request whose numbers fit their fields: `OrderID` and `Price` in 8 bytes, `Quantity` in
4. -/
def Request.InRange : Request → Prop
  | .orderRequest price quantity _ => price < 256 ^ 8 ∧ quantity < 256 ^ 4
  | .cancelRequest orderId => orderId < 256 ^ 8
  | .replaceRequest orderId price quantity _ =>
    orderId < 256 ^ 8 ∧ price < 256 ^ 8 ∧ quantity < 256 ^ 4
  | .loginRequest .. | .logoutRequest | .purgeRequest | .header => True

/-- `w` little-endian bytes hold a number below `256 ^ w`. -/
theorem ofBytesLE_lt : ∀ bs : List UInt8, DataFeed.ofBytesLE bs < 256 ^ bs.length
  | [] => Nat.one_pos
  | b :: bs => by
    have hb : b.toNat < 256 := b.toNat_lt
    have ih := ofBytesLE_lt bs
    rw [DataFeed.ofBytesLE, List.length_cons, pow_succ]
    omega

theorem Packet.field_lt (p : Packet) (offset width : Nat) : p.field offset width < 256 ^ width :=
  lt_of_lt_of_le (ofBytesLE_lt _) (Nat.pow_le_pow_right (by norm_num) (List.length_take_le _ _))

/-- Every request `read_buffer` decodes carries numbers that fit their fields. -/
theorem Packet.request_inRange (p : Packet) : p.request.InRange := by
  unfold Packet.request
  split <;> simp only [Request.InRange, Packet.field_lt, and_self]

end Messages

namespace Server

/-- An event of a run over the wire: a frame carries the request `read_buffer` decoded from a
packet. -/
def Event.OnWire : Event → Prop
  | .frame _ r => ∃ p : Packet, p.request = r
  | .eof _ => True

/-- The runs from `s₀` in which every frame is decoded from a packet. -/
inductive WireRun (s₀ : Server) : Server → Prop
  | start : WireRun s₀ s₀
  | step {s s' : Server} (ev : Event) : WireRun s₀ s → s.step ev = .ok s' → ev.OnWire →
      WireRun s₀ s'

theorem WireRun.reachable {s₀ s : Server} (h : WireRun s₀ s) : Reachable s₀ s := by
  induction h with
  | start => exact .start
  | step ev _ hs _ ih => exact .step ev ih hs

/-! ## §4 The queued frames keep within their fields -/

/-- The bounds a run over the wire keeps: those of the book, and every frame queued on every
connection fitting its fields. -/
structure WireInv (s : Server) : Prop where
  book : LOB.FieldsFit s.book
  output : ∀ k, ∀ f ∈ (s.connections k).output, f.response.Fits

theorem ofLOBSide_lt (side : LOB.Side) : (ofLOBSide side).toNat < 256 := by
  cases side <;> decide

/-- A callback whose orders fit is reported in a frame that fits. -/
theorem tradeResponse_fits {c : LOB.Callback} (hc : c.Fits) : c.tradeResponse.Fits := by
  have h0 : (0 : Nat) < 256 ^ 8 := by positivity
  cases c with
  | limitFill l m => exact ⟨hc.1.1, hc.1.2.1, hc.1.2.2, by positivity, ofLOBSide_lt _⟩
  | limitPartial l m => exact ⟨hc.1.1, hc.1.2.1, hc.2.2.2, hc.1.2.2, ofLOBSide_lt _⟩
  | marketFill l m => exact ⟨h0, hc.1.2.1, hc.2.2.2, by positivity, ofLOBSide_lt _⟩
  | marketPartial l m => exact ⟨h0, hc.1.2.1, hc.1.2.2, hc.2.2.2, ofLOBSide_lt _⟩

section Primitives

variable {s : Server} {k : Nat}

theorem WireInv.send (h : WireInv s) {r : Response} (hr : r.Fits) :
    WireInv (s.send k r) where
  book := h.book
  output j f hf := by
    rw [send_connections] at hf
    split at hf
    · subst j
      rcases List.mem_append.mp hf with hf | hf
      · exact h.output k f hf
      · rw [List.mem_singleton] at hf; exact hf ▸ hr
    · exact h.output j f hf

theorem WireInv.setConnection (h : WireInv s) {c : Connection}
    (hc : c.output = (s.connections k).output) : WireInv (s.setConnection k c) where
  book := h.book
  output j f hf := by
    rw [setConnection_connections, Function.update_apply] at hf
    split at hf
    · subst j; exact h.output k f (hc ▸ hf)
    · exact h.output j f hf

theorem WireInv.setAccount (h : WireInv s) (a : LOB.AccountId) (sa : Option SystemAccount) :
    WireInv (s.setAccount a sa) :=
  ⟨h.book, h.output⟩

theorem WireInv.logout (h : WireInv s) (k : Nat) : WireInv (s.logout k) := by
  unfold Server.logout; split
  · exact h
  · exact (h.setAccount _ _).setConnection rfl

theorem WireInv.report (h : WireInv s) {c : LOB.Callback} (hc : c.Fits) : WireInv (s.report c) := by
  unfold Server.report; split
  · exact h
  · exact h.send (tradeResponse_fits hc)

theorem WireInv.reportAll :
    ∀ (cbs : List LOB.Callback) (s : Server), WireInv s → (∀ c ∈ cbs, c.Fits) →
      WireInv (cbs.foldl Server.report s)
  | [], _, h, _ => h
  | c :: cbs, _, h, hc => reportAll cbs _ (h.report (hc c (List.mem_cons_self _ _)))
      fun c' hc' => hc c' (List.mem_cons_of_mem _ hc')

/-- A call into the book whose bounds hold reports only frames that fit. -/
theorem WireInv.withBook (h : WireInv s) {e : LOB.Engine} (he : LOB.FieldsFit e) :
    WireInv (s.withBook e) :=
  reportAll _ _ ⟨he, h.output⟩ fun c hc => he.fills c (List.mem_of_mem_drop hc)

end Primitives

/-! ## §5 The handlers keep the bounds -/

section Handlers

variable {s s' : Server} {k : Nat}

theorem WireInv.handleLoginRequest (h : WireInv s) (k : Nat) (username password : String) :
    WireInv (s.handleLoginRequest k username password) := by
  rcases handleLoginRequest_cases s k username password with ⟨st, heq⟩ | ⟨sa, -, heq⟩ <;> rw [heq]
  · exact h.send (by trivial)
  · refine WireInv.send ((h.setAccount _ _).setConnection ?_) trivial
    rfl

theorem WireInv.handleLogoutRequest (h : WireInv s) (k : Nat) :
    WireInv (s.handleLogoutRequest k) := by
  unfold Server.handleLogoutRequest; split
  · exact h.send (by trivial)
  · exact (h.logout k).send (by trivial)

/-- An order is answered with order id 0 or the uid `limit` returns. -/
theorem WireInv.handleOrderRequest (h : WireInv s) (hi : LOB.Inv s.book)
    (hseq : s.book.sequence < 256 ^ 8) {price quantity : Nat} (hp : price < 256 ^ 8)
    (hq : quantity < 256 ^ 4) (side : Side) : WireInv (s.handleOrderRequest k price quantity side) := by
  have h0 : orderIdRejected < 256 ^ 8 := by unfold orderIdRejected; positivity
  unfold Server.handleOrderRequest
  split
  · exact h.send h0
  next a _ =>
    split
    · rw [LOB.LimitOrderBook.market_eq_marketSide]
      exact (h.withBook (h.book.marketSide _ a hseq hq)).send h0
    · dsimp only
      rw [LOB.LimitOrderBook.limit_eq_limitSide]
      obtain ⟨hb, hu⟩ := h.book.limitSide hi (sideToLOBSide side) a hseq hp hq
      exact (h.withBook hb).send hu

theorem WireInv.handleCancelRequest (h : WireInv s) {orderId : Nat} (ho : orderId < 256 ^ 8)
    (hs : s.handleCancelRequest k orderId = .ok s') : WireInv s' := by
  unfold Server.handleCancelRequest at hs
  split at hs
  · cases hs; exact h.send ho
  · split at hs
    · cases hs; exact h.send ho
    · obtain ⟨o, -, hs⟩ := bind_eq_ok.mp hs
      split at hs
      · cases hs; exact h.send ho
      · obtain ⟨e, he, hs⟩ := bind_eq_ok.mp hs
        cases hs; exact (h.withBook (h.book.cancel he)).send ho

/-- The new order of a replace is placed with the request's price and quantity. -/
theorem WireInv.replaceOrder (h : WireInv s) (hi : LOB.Inv s.book)
    (hseq : s.book.sequence < 256 ^ 8) (a : LOB.AccountId) {canceled price quantity : Nat}
    (hc : canceled < 256 ^ 8) (hp : price < 256 ^ 8) (hq : quantity < 256 ^ 4) (side : Side) :
    WireInv (s.replaceOrder k a canceled price quantity side) := by
  unfold Server.replaceOrder
  dsimp only
  split_ifs
  · obtain ⟨hb, hu⟩ := h.book.limitSide hi .sell a hseq hp hq
    exact (h.withBook hb).send ⟨hc, hu⟩
  · obtain ⟨hb, hu⟩ := h.book.limitSide hi .buy a hseq hp hq
    exact (h.withBook hb).send ⟨hc, hu⟩
  · exact (h.withBook h.book).send ⟨hc, by unfold orderIdRejected; positivity⟩

theorem WireInv.handleReplaceRequest (h : WireInv s) (hi : LOB.Inv s.book)
    (hseq : s.book.sequence < 256 ^ 8) {orderId price quantity : Nat} {side : Side}
    (ho : orderId < 256 ^ 8) (hp : price < 256 ^ 8) (hq : quantity < 256 ^ 4)
    (hs : s.handleReplaceRequest k orderId price quantity side = .ok s') : WireInv s' := by
  have h0 : orderIdRejected < 256 ^ 8 := by unfold orderIdRejected; positivity
  unfold Server.handleReplaceRequest at hs
  split at hs
  · cases hs; exact h.send ⟨ho, h0⟩
  next a _ =>
    split at hs
    · obtain ⟨o, -, hs⟩ := bind_eq_ok.mp hs
      split at hs
      · cases hs; exact h.send ⟨ho, h0⟩
      · obtain ⟨e, he, hs⟩ := bind_eq_ok.mp hs
        cases hs
        exact (h.withBook (h.book.cancel he)).replaceOrder (by rw [withBook_book]; exact hi.cancel he)
          (by rwa [withBook_book, LOB.sequence_of_cancel he]) a ho hp hq side
    · cases hs; exact h.replaceOrder hi hseq a h0 hp hq side

/-- A purge cancels, which fires no callback and queues nothing, then answers with a status. -/
theorem WireInv.handlePurgeRequest (h : WireInv s) (hb : BookInv s)
    (hs : s.handlePurgeRequest k = .ok s') : WireInv s' := by
  unfold Server.handlePurgeRequest at hs
  split at hs
  · cases hs; exact h.send (by trivial)
  next a _ =>
    obtain ⟨s₁, hp, -, hP, hc, -⟩ := hb.purgeLoop_purged (a := a) _ s le_rfl
    obtain ⟨s₂, h₂, hs⟩ := bind_eq_ok.mp hs
    rw [hp] at h₂; cases h₂; cases hs
    refine WireInv.send ⟨⟨fun u o hu => ?_, hP.fills ▸ h.book.fills⟩, hc ▸ h.output⟩ trivial
    rw [hP.orders] at hu
    split at hu
    · cases hu
    · exact h.book.orders u o hu

theorem WireInv.handleHeader (h : WireInv s) (k : Nat) : WireInv (s.handleHeader k) :=
  (h.logout k).send (by trivial)

/-- **One event over the wire keeps the bounds**, while the uid counter fits. -/
theorem WireInv.step (h : WireInv s) (hb : BookInv s) (hseq : s.book.sequence < 256 ^ 8)
    {ev : Event} (hw : ev.OnWire) (hs : s.step ev = .ok s') : WireInv s' := by
  cases ev with
  | eof k =>
    rw [step_eof] at hs
    split at hs <;> cases hs
    · exact h
    · exact (h.logout k).setConnection rfl
  | frame k r =>
    obtain ⟨p, rfl⟩ := hw
    have hr := p.request_inRange
    rw [step_frame] at hs
    split at hs
    · cases hs; exact h
    · generalize p.request = r at hr hs
      cases r with
      | loginRequest username password => cases hs; exact h.handleLoginRequest k _ _
      | logoutRequest => cases hs; exact h.handleLogoutRequest k
      | orderRequest price quantity side =>
        cases hs; exact h.handleOrderRequest hb.1 hseq hr.1 hr.2 side
      | cancelRequest orderId => exact h.handleCancelRequest hr hs
      | replaceRequest orderId price quantity side =>
        exact h.handleReplaceRequest hb.1 hseq hr.1 hr.2.1 hr.2.2 hs
      | purgeRequest => exact h.handlePurgeRequest hb hs
      | header => cases hs; exact h.handleHeader k

end Handlers

/-! ## §6 Runs over the wire -/

section Runs

variable {users : List (String × String)} {s₀ s : Server}

theorem WireInv.init (h₀ : init users = .ok s₀) : WireInv s₀ := by
  obtain ⟨-, hc, hb⟩ := init_spec h₀
  refine ⟨?_, fun k f hf => ?_⟩
  · rw [hb]; exact ⟨fun u o hu => by simp [LOB.Engine.init] at hu, fun c hc => by cases hc⟩
  · rw [hc k] at hf; cases hf

/-- **Every run over the wire keeps the bounds**, provided it issues fewer than `2 ^ 64 - 1` uids:
the counter never moves back, so it fits at every step before. -/
theorem WireRun.wireInv (h₀ : init users = .ok s₀) (h : WireRun s₀ s)
    (hseq : s.book.sequence < 256 ^ 8) : WireInv s := by
  induction h with
  | start => exact .init h₀
  | step ev hr hs hw ih =>
    have hb := hr.reachable.bookInv h₀
    have hle := (LOB.Reachable.sequence_le (fun _ hc => hc.1) hb.1 (step_reported hs)).2
    exact (ih (lt_of_le_of_lt hle hseq)).step hb (lt_of_le_of_lt hle hseq) hw hs

end Runs

/-! ## §7 The client over the wire -/

section Client

variable {users : List (String × String)} {s₀ s : Server}

/-- **The client reads exactly what the server queued.** On every run over the wire from the
server's start that issues fewer than `2 ^ 64 - 1` uids, the client whose read loop takes the
packets `Connection::send` built for connection `k`, in order, throws on none of them and ends as
the client that handled every frame queued for `k`. -/
theorem wire_client_reads_queued_frames (h₀ : init users = .ok s₀) (h : WireRun s₀ s)
    (hseq : s.book.sequence < 256 ^ 8) (k : Nat) :
    Client.new.readAll ((s.connections k).output.map Frame.encode) = some (s.clientOf k) :=
  Client.client_reads_server_packets _ ((h.wireInv h₀ hseq).output k)

theorem wire_reads_after_login_and_order :
    ∃ s₀ s, init [("AAAA", "password1234")] = .ok s₀ ∧
      s₀.run [.frame 0 (.loginRequest "AAAA" "password1234"), .frame 0 (.orderRequest 100 10 'S')] =
        .ok s ∧ WireRun s₀ s ∧ s.book.sequence < 256 ^ 8 ∧
      Client.new.readAll ((s.connections 0).output.map Frame.encode) = some (s.clientOf 0) := by
  obtain ⟨_, -, hl⟩ := request_encode (r := .loginRequest "AAAA" "password1234") (by decide) 0
  obtain ⟨_, -, ho⟩ := request_encode (r := .orderRequest 100 10 'S') (by decide) 0
  refine ⟨_, _, rfl, rfl, ?w, by decide,
    @wire_client_reads_queued_frames [("AAAA", "password1234")] _ _ rfl ?w (by decide) 0⟩
  exact .step (.frame 0 (.orderRequest 100 10 'S'))
    (.step (.frame 0 (.loginRequest "AAAA" "password1234")) .start rfl ⟨_, hl⟩) rfl ⟨_, ho⟩

/-- **The client's order set mirrors the server through the bytes.** Take a run over the wire
from the server's start that issues fewer than `2 ^ 64 - 1` uids, in which connection `k` logs
into an account with no resting order, never logs out, is never closed and never sends a frame
of unknown kind. The client that reads the packets queued for `k` throws on none of them, and
holds as its active orders exactly the uids of its account's orders resting in the book. -/
theorem wire_client_mirrors_server (h₀ : init users = .ok s₀) {k : Nat}
    (h : ClientRun NoRestingOrders k s₀ s) (hw : WireRun s₀ s) (hseq : s.book.sequence < 256 ^ 8)
    {a : LOB.AccountId} (hk : (s.connections k).account = some a) :
    ∃ c, Client.new.readAll ((s.connections k).output.map Frame.encode) = some c ∧
      ∀ u, u ∈ c.activeOrders ↔ ∃ o, s.book.orders.lookup u = some o ∧ o.account = a := by
  refine ⟨s.clientOf k, Client.client_reads_server_packets _ ((hw.wireInv h₀ hseq).output k),
    fun u => ?_⟩
  rw [(agrees_of_some hk).mp (activeOrders_simulation.run h₀ rfl h), (h.reachable.bookInv h₀).2 a u]
  simp

theorem wire_orders_after_login_and_order :
    ∃ s₀ s, init [("AAAA", "password1234")] = .ok s₀ ∧
      s₀.run [.frame 0 (.loginRequest "AAAA" "password1234"), .frame 0 (.orderRequest 100 10 'S')] =
        .ok s ∧ ClientRun NoRestingOrders 0 s₀ s ∧ WireRun s₀ s ∧ s.book.sequence < 256 ^ 8 ∧
      (s.connections 0).account = some "AAAA" ∧
      ∃ c, Client.new.readAll ((s.connections 0).output.map Frame.encode) = some c ∧
        ∀ u, u ∈ c.activeOrders ↔ ∃ o, s.book.orders.lookup u = some o ∧ o.account = "AAAA" := by
  obtain ⟨_, -, hl⟩ := request_encode (r := .loginRequest "AAAA" "password1234") (by decide) 0
  obtain ⟨_, -, ho⟩ := request_encode (r := .orderRequest 100 10 'S') (by decide) 0
  refine ⟨_, _, rfl, rfl, ?c, ?w, by decide, by decide,
    @wire_client_mirrors_server [("AAAA", "password1234")] _ _ rfl 0 ?c ?w (by decide) "AAAA"
      (by decide)⟩
  · exact .run_of_some (a := "AAAA") (.step (.frame 0 (.loginRequest "AAAA" "password1234")) .start
      rfl (by decide) (by decide) (by decide) fun _ _ _ _ _ hn => by cases hn) (by decide)
        [.frame 0 (.orderRequest 100 10 'S')] rfl (by decide)
  · exact .step (.frame 0 (.orderRequest 100 10 'S'))
      (.step (.frame 0 (.loginRequest "AAAA" "password1234")) .start rfl ⟨_, hl⟩) rfl ⟨_, ho⟩

end Client

end Server

end CboeEmulator.OrderEntry

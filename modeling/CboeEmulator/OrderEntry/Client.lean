import CboeEmulator.OrderEntry.Messages

/-!
# Order-Entry Client

`OrderEntry::Client` of `order_entry/client.hpp`, as the responses it reads change it. The read
loop hands each frame to one overload of `Client::handle`, which keeps the login flag, the set of
the client's active orders and its local position.

## Representation

- `OrderIDSet` (`std::set<OrderID>`) is a `Finset Nat`.
- `ClientShares` (`int32_t`) is `BitVec 32` and `ClientCapital` (`int64_t`) is `BitVec 64`, two's
  complement. `shares -= quantity` is computed in `uint32_t` and `capital += quantity * price` in
  `uint64_t`; both are stored back modulo 2^32 and 2^64.
- As in the server's model, a response's quantities and prices are natural numbers.
- The socket and the write side (`output_buffer`, `output_buffer_size`, `sequence`, `send`) are
  the write pump's and are not fields here. `handle(Header)`, the `default` of the read loop's
  switch, is left out: the server queues frames of the seven response kinds only.

## Main definitions

- `Client`, `Client.new`: the state the handlers keep, and the client as constructed;
- `Client.handle`: the read loop's dispatch of one response;
- `Client.receive`: the client after reading a queue of frames in order.

## Main results

- `receive_append`: reading a queue in two parts;
- `handleTradeResponse_cancel`: a trade report and an accepted cancel commute;
- `handleReplaceResponse_of_ne`: an accepted replace is a cancel and then an order response.
-/

namespace CboeEmulator.OrderEntry

open Messages

/-! ## §1 The client's state and its handlers -/

/-- The fields of `class Client` that its handlers read and write. -/
@[ext]
structure Client where
  /-- whether the client connection is authorized or not -/
  isAuthorized : Bool
  /-- a set of active orders for the client connection -/
  activeOrders : Finset Nat
  /-- the number of shares owned by the account (`ClientShares`) -/
  shares : BitVec 32
  /-- the total capital the account has (`ClientCapital`) -/
  capital : BitVec 64
  deriving DecidableEq

namespace Client

/-- The client as the constructor leaves it: not authorized, no active order, no position. -/
def new : Client := ⟨false, ∅, 0, 0⟩

/-- `handle(LoginResponse)`: `Accepted` and `AlreadyAuthorized` authorize the client, the other
statuses do not. -/
def handleLoginResponse (c : Client) (status : LoginResponseStatus) : Client :=
  match status with
  | .accepted => { c with isAuthorized := true }
  | .notAuthorized => { c with isAuthorized := false }
  | .alreadyAuthorized => { c with isAuthorized := true }
  | .sessionInUse => { c with isAuthorized := false }

/-- `handle(LogoutResponse)`: whatever the reason, the client is no longer authorized and its
set of active orders is cleared. -/
def handleLogoutResponse (c : Client) (_reason : LogoutReason) : Client :=
  { c with isAuthorized := false, activeOrders := ∅ }

/-- `handle(OrderResponse)`: a rejected order and a market order (id 0) change nothing; a limit
order's id joins the active orders. -/
def handleOrderResponse (c : Client) (orderId : Nat) (status : Status) : Client :=
  if status = .rejected then c
  else if orderId = 0 then c
  else { c with activeOrders := insert orderId c.activeOrders }

/-- `handle(CancelResponse)`: an accepted cancel drops the id from the active orders. -/
def handleCancelResponse (c : Client) (orderId : Nat) (status : Status) : Client :=
  if status = .rejected then c
  else { c with activeOrders := c.activeOrders.erase orderId }

/-- `handle(ReplaceResponse)`: an accepted replace drops the canceled id unless it is 0, then adds
the new id unless it is 0. -/
def handleReplaceResponse (c : Client) (canceled newOrderId : Nat) (status : Status) : Client :=
  if status = .rejected then c
  else
    let c := if canceled ≠ 0 then { c with activeOrders := c.activeOrders.erase canceled } else c
    if newOrderId ≠ 0 then { c with activeOrders := insert newOrderId c.activeOrders } else c

/-- `handle(PurgeResponse)`: an accepted purge clears the active orders. -/
def handlePurgeResponse (c : Client) (status : Status) : Client :=
  if status = .rejected then c else { c with activeOrders := ∅ }

/-- `handle(TradeResponse)`: a sell gives up `quantity` shares for `quantity * price` of capital,
a buy the reverse, and a side byte that is neither changes neither; then a limit order (id not 0)
with nothing left leaves the active orders. -/
def handleTradeResponse (c : Client) (orderId price quantity leavesQuantity : Nat) (side : Side) :
    Client :=
  let c :=
    if side = 'S' then
      { c with shares := c.shares - BitVec.ofNat 32 quantity,
               capital := c.capital + BitVec.ofNat 64 (quantity * price) }
    else if side = 'B' then
      { c with shares := c.shares + BitVec.ofNat 32 quantity,
               capital := c.capital - BitVec.ofNat 64 (quantity * price) }
    else c
  if orderId ≠ 0 ∧ leavesQuantity = 0 then { c with activeOrders := c.activeOrders.erase orderId }
  else c

/-- `read_buffer`'s dispatch on the frame's `MessageID`. -/
def handle (c : Client) : Response → Client
  | .loginResponse status => c.handleLoginResponse status
  | .logoutResponse reason => c.handleLogoutResponse reason
  | .orderResponse orderId status => c.handleOrderResponse orderId status
  | .cancelResponse orderId status => c.handleCancelResponse orderId status
  | .replaceResponse canceled newOrderId status => c.handleReplaceResponse canceled newOrderId status
  | .purgeResponse status => c.handlePurgeResponse status
  | .tradeResponse orderId price quantity leavesQuantity side =>
    c.handleTradeResponse orderId price quantity leavesQuantity side

/-- The client after its read loop has handled the frames `fs`, in order. -/
def receive (c : Client) (fs : List Frame) : Client := fs.foldl (fun c f => c.handle f.response) c

/-! ## §2 Equations -/

section Equations

variable {c : Client}

@[simp] theorem receive_nil : c.receive [] = c := rfl

@[simp] theorem receive_cons (f : Frame) (fs : List Frame) :
    c.receive (f :: fs) = (c.handle f.response).receive fs := rfl

theorem receive_append (fs gs : List Frame) : c.receive (fs ++ gs) = (c.receive fs).receive gs :=
  List.foldl_append _ _ _ _

/-- A rejected order, cancel, replace or purge changes nothing. -/
@[simp] theorem handle_orderResponse_rejected (u : Nat) :
    c.handle (.orderResponse u .rejected) = c := rfl
@[simp] theorem handle_cancelResponse_rejected (u : Nat) :
    c.handle (.cancelResponse u .rejected) = c := rfl
@[simp] theorem handle_replaceResponse_rejected (u v : Nat) :
    c.handle (.replaceResponse u v .rejected) = c := rfl
@[simp] theorem handle_purgeResponse_rejected : c.handle (.purgeResponse .rejected) = c := rfl

/-- A market order's response changes nothing. -/
@[simp] theorem handleOrderResponse_zero (status : Status) : c.handleOrderResponse 0 status = c := by
  unfold handleOrderResponse; split <;> rfl

/-- A login response changes only the login flag. -/
theorem handleLoginResponse_eq (status : LoginResponseStatus) :
    ∃ b, c.handleLoginResponse status = { c with isAuthorized := b } := by
  cases status <;> exact ⟨_, rfl⟩

/-- An accepted replace with a canceled id is a cancel, then the response to the new order. -/
theorem handleReplaceResponse_of_ne {canceled : Nat} (h : canceled ≠ 0) (newOrderId : Nat) :
    c.handleReplaceResponse canceled newOrderId .accepted =
      (c.handleCancelResponse canceled .accepted).handleOrderResponse newOrderId .accepted := by
  by_cases hn : newOrderId = 0 <;> simp [handleReplaceResponse, handleCancelResponse,
    handleOrderResponse, h, hn]

/-- An accepted replace with no canceled id is the response to the new order. -/
theorem handleReplaceResponse_zero (newOrderId : Nat) :
    c.handleReplaceResponse 0 newOrderId .accepted = c.handleOrderResponse newOrderId .accepted := by
  by_cases hn : newOrderId = 0 <;> simp [handleReplaceResponse, handleOrderResponse, hn]

@[simp] theorem handleTradeResponse_isAuthorized (o p q l : Nat) (side : Side) :
    (c.handleTradeResponse o p q l side).isAuthorized = c.isAuthorized := by
  unfold handleTradeResponse
  split_ifs <;> rfl

@[simp] theorem handleTradeResponse_activeOrders (o p q l : Nat) (side : Side) :
    (c.handleTradeResponse o p q l side).activeOrders =
      if o ≠ 0 ∧ l = 0 then c.activeOrders.erase o else c.activeOrders := by
  unfold handleTradeResponse
  split_ifs <;> rfl

@[simp] theorem handleTradeResponse_shares (o p q l : Nat) (side : Side) :
    (c.handleTradeResponse o p q l side).shares =
      if side = 'S' then c.shares - BitVec.ofNat 32 q
      else if side = 'B' then c.shares + BitVec.ofNat 32 q else c.shares := by
  unfold handleTradeResponse
  split_ifs <;> rfl

@[simp] theorem handleTradeResponse_capital (o p q l : Nat) (side : Side) :
    (c.handleTradeResponse o p q l side).capital =
      if side = 'S' then c.capital + BitVec.ofNat 64 (q * p)
      else if side = 'B' then c.capital - BitVec.ofNat 64 (q * p) else c.capital := by
  unfold handleTradeResponse
  split_ifs <;> rfl

/-- **A trade report and an accepted cancel commute**: both only take ids out of the active
orders, and the cancel leaves the position alone. -/
theorem handleTradeResponse_cancel (u o p q l : Nat) (side : Side) :
    (c.handleTradeResponse o p q l side).handleCancelResponse u .accepted =
      (c.handleCancelResponse u .accepted).handleTradeResponse o p q l side := by
  have hc : ∀ c : Client, c.handleCancelResponse u .accepted =
      { c with activeOrders := c.activeOrders.erase u } := fun _ => rfl
  rw [hc, hc]
  ext : 1
  · simp
  · simp only [handleTradeResponse_activeOrders]
    split_ifs <;> simp [Finset.erase_right_comm]
  · simp
  · simp

end Equations

end Client

end CboeEmulator.OrderEntry

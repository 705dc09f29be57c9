import CboeEmulator.OrderEntry.Messages
import CboeEmulator.OrderEntry.LimitOrderBook

/-!
# Order-Entry Server: Connections and the Authorizer

`Connection` (`order_entry/connection.hpp`), `Authorizer` (`authorizer.hpp`), `SystemAccount`
(`system_account.hpp`) and the accept loop of `Server` (`server.hpp`). Many connections share
one authorizer and one book. Each connection handles the frames its client sends, and the
accounts' fill callbacks report trades to the connection logged into them.

## The state

`Server` holds the following:
- the authorizer's accounts, keyed by user name;
- the book, which keeps every account's `LOB::Account` part (`Engine.accounts`) under the same
  name;
- every connection the acceptor will ever hand out, by number. A connection no client has reached
  yet is a fresh one that receives nothing.

A connection keeps these:
- the account it is logged into (`nullptr` is `none`);
- every frame it has queued for its client, with the sequence number `send` stamped on it;
- the next sequence number;
- whether its read loop stopped at end of file.

## Events

`Server.step` handles one event. The event is either a frame arriving on a connection
(`read_buffer`'s dispatch to `handle`) or end of file on it (`logout()`, after which the read
loop stops). A call into the book that throws ends the server, and `step` then returns the
book's error.
-/

namespace CboeEmulator.OrderEntry

open Messages

/-! ## §1 Accounts and the authorizer -/

/-- `SystemAccount<Connection>` less its `LOB::Account` base, which the book keeps. Its `username`
is the key the authorizer stores it under. -/
structure SystemAccount where
  /-- the password for the account -/
  password : String
  /-- the connection for this account (`nullptr` is `none`) -/
  handler : Option Nat
  /-- whether the account is currently logged in -/
  isConnected : Bool
  deriving DecidableEq, Repr

/-- `Authorizer<Connection>`. -/
structure Authorizer where
  /-- `accounts`: the `std::map` of accounts by user name -/
  accounts : LOB.AccountId → Option SystemAccount

namespace Authorizer

/-- `new_user(username, password)`: refuse a user name that is taken; otherwise store an account
that is not connected and has no handler. -/
def newUser (auth : Authorizer) (username password : String) : Except String Authorizer :=
  if (auth.accounts username).isSome then .error "username already exists in system"
  else .ok ⟨Function.update auth.accounts username (some ⟨password, none, false⟩)⟩

/-- `is_valid(username, password)`: the user name is known and its password matches. -/
def isValid (auth : Authorizer) (username password : String) : Bool :=
  match auth.accounts username with
  | none => false
  | some a => a.password == password

end Authorizer

/-! ## §2 Connections and the server -/

/-- The state of a `Connection`. -/
structure Connection where
  /-- the account for this connection (`nullptr`, not signed in, is `none`) -/
  account : Option LOB.AccountId
  /-- every frame queued on `output_buffer` so far, in order -/
  output : List Frame
  /-- the sequence number for the next frame -/
  sequence : Nat
  /-- the read loop stopped at end of file -/
  eof : Bool
  deriving DecidableEq, Repr

/-- A connection as `Connection::create` makes it. -/
def Connection.new : Connection := ⟨none, [], 0, false⟩

/-- The connection after `send` queues `r`. -/
def Connection.push (c : Connection) (r : Response) : Connection :=
  { c with output := c.output ++ [⟨c.sequence, r⟩], sequence := c.sequence + 1 }

/-- The server: the authorizer, the book, and the connections by number. -/
structure Server where
  /-- `authorizer` -/
  authorizer : Authorizer
  /-- `book`, with the accounts' `LOB::Account` parts -/
  book : LOB.Engine
  /-- every connection, by number -/
  connections : Nat → Connection

/-- The `TradeResponse` a `SystemAccount` override sends to its handler after the base callback:
order id, price, quantity, leaves quantity and side. The taker's reports carry order id 0. -/
def LOB.Callback.tradeResponse : LOB.Callback → Response
  | .limitFill l _ => .tradeResponse l.uid l.price l.quantity 0 (ofLOBSide l.side)
  | .limitPartial l m => .tradeResponse l.uid l.price m.quantity l.quantity (ofLOBSide l.side)
  | .marketFill l m => .tradeResponse 0 l.price m.quantity 0 (ofLOBSide m.side)
  | .marketPartial l m => .tradeResponse 0 l.price l.quantity m.quantity (ofLOBSide m.side)

namespace Server

/-- `Server(context, book, port, accounts)`: an empty book, each configured user created in
order, and no connection reached yet. -/
def init (users : List (String × String)) : Except String Server := do
  let auth ← users.foldlM (fun auth user => auth.newUser user.1 user.2) ⟨fun _ => none⟩
  pure ⟨auth, LOB.Engine.init fun _ => LOB.Account.new, fun _ => Connection.new⟩

/-- The server with connection `k` replaced by `c`. -/
def setConnection (s : Server) (k : Nat) (c : Connection) : Server :=
  { s with connections := Function.update s.connections k c }

/-- The server with the account stored under `a` replaced by `sa`. -/
def setAccount (s : Server) (a : LOB.AccountId) (sa : Option SystemAccount) : Server :=
  { s with authorizer := ⟨Function.update s.authorizer.accounts a sa⟩ }

/-- `send<T>(args...)` on connection `k`: queue the frame under the next sequence number. -/
def send (s : Server) (k : Nat) (r : Response) : Server :=
  s.setConnection k ((s.connections k).push r)

/-- The connection an account's callbacks reach: its `handler`. -/
def handlerOf (s : Server) (a : LOB.AccountId) : Option Nat :=
  (s.authorizer.accounts a).bind (·.handler)

/-- The report of a `SystemAccount` callback: `if (handler == nullptr) return;` and otherwise
`handler->trade(...)`. -/
def report (s : Server) (c : LOB.Callback) : Server :=
  match s.handlerOf c.account with
  | none => s
  | some k => s.send k c.tradeResponse

/-- A call into the book: the book becomes `e`, and each callback the call fired reports to its
account's handler, in order. -/
def withBook (s : Server) (e : LOB.Engine) : Server :=
  (e.fills.drop s.book.fills.length).foldl report { s with book := e }

/-- `logout()`: if the connection is logged in, mark the account disconnected, drop its handler,
and forget the account. -/
def logout (s : Server) (k : Nat) : Server :=
  match (s.connections k).account with
  | none => s
  | some a =>
    (s.setAccount a ((s.authorizer.accounts a).map fun sa =>
      { sa with isConnected := false, handler := none })).setConnection k
      { s.connections k with account := none }

/-! ## §3 Equations of the server's updates -/

/-- A computation that may throw, then another, returns normally when both do. -/
theorem bind_eq_ok {ε α β : Type} {x : Except ε α} {f : α → Except ε β} {b : β} :
    x >>= f = .ok b ↔ ∃ a, x = .ok a ∧ f a = .ok b := by
  cases x <;> simp [bind, Except.bind]

section Equations

variable {s : Server} {k k' : Nat} {c : Connection} {r : Response}

@[simp] theorem setConnection_book : (s.setConnection k c).book = s.book := rfl
@[simp] theorem setConnection_authorizer : (s.setConnection k c).authorizer = s.authorizer := rfl
@[simp] theorem setConnection_connections :
    (s.setConnection k c).connections = Function.update s.connections k c := rfl
@[simp] theorem setAccount_book {a : LOB.AccountId} {sa : Option SystemAccount} :
    (s.setAccount a sa).book = s.book := rfl
@[simp] theorem setAccount_connections {a : LOB.AccountId} {sa : Option SystemAccount} :
    (s.setAccount a sa).connections = s.connections := rfl
@[simp] theorem setAccount_accounts {a : LOB.AccountId} {sa : Option SystemAccount} :
    (s.setAccount a sa).authorizer.accounts = Function.update s.authorizer.accounts a sa := rfl
@[simp] theorem push_account : (c.push r).account = c.account := rfl
@[simp] theorem push_eof : (c.push r).eof = c.eof := rfl
@[simp] theorem send_book : (s.send k r).book = s.book := rfl
@[simp] theorem send_authorizer : (s.send k r).authorizer = s.authorizer := rfl

/-- `send` queues on its own connection only. -/
theorem send_connections :
    (s.send k r).connections k' = if k' = k then (s.connections k).push r else s.connections k' := by
  simp [send, Function.update_apply]

@[simp] theorem send_account : ((s.send k r).connections k').account = (s.connections k').account := by
  rw [send_connections]; split <;> simp_all

@[simp] theorem send_eof : ((s.send k r).connections k').eof = (s.connections k').eof := by
  rw [send_connections]; split <;> simp_all

@[simp] theorem report_book (cb : LOB.Callback) : (s.report cb).book = s.book := by
  unfold report; split <;> rfl

@[simp] theorem report_authorizer (cb : LOB.Callback) : (s.report cb).authorizer = s.authorizer := by
  unfold report; split <;> rfl

@[simp] theorem report_account (cb : LOB.Callback) :
    ((s.report cb).connections k').account = (s.connections k').account := by
  unfold report; split <;> simp

@[simp] theorem report_eof (cb : LOB.Callback) :
    ((s.report cb).connections k').eof = (s.connections k').eof := by
  unfold report; split <;> simp

/-- Reports queue frames and touch nothing else. -/
theorem foldl_report (cbs : List LOB.Callback) :
    ∀ s : Server, (cbs.foldl report s).book = s.book ∧ (cbs.foldl report s).authorizer = s.authorizer ∧
      ∀ k, ((cbs.foldl report s).connections k).account = (s.connections k).account ∧
        ((cbs.foldl report s).connections k).eof = (s.connections k).eof := by
  induction cbs with
  | nil => simp
  | cons cb cbs ih =>
    intro s
    obtain ⟨h₁, h₂, h₃⟩ := ih (s.report cb)
    exact ⟨h₁.trans (report_book cb), h₂.trans (report_authorizer cb),
      fun k => ⟨(h₃ k).1.trans (report_account cb), (h₃ k).2.trans (report_eof cb)⟩⟩

@[simp] theorem withBook_book (e : LOB.Engine) : (s.withBook e).book = e :=
  (foldl_report _ _).1

@[simp] theorem withBook_authorizer (e : LOB.Engine) : (s.withBook e).authorizer = s.authorizer :=
  (foldl_report _ _).2.1

@[simp] theorem withBook_eof (e : LOB.Engine) :
    ((s.withBook e).connections k).eof = (s.connections k).eof :=
  ((foldl_report _ _).2.2 k).2

@[simp] theorem withBook_account (e : LOB.Engine) :
    ((s.withBook e).connections k).account = (s.connections k).account :=
  ((foldl_report _ _).2.2 k).1

@[simp] theorem logout_book : (s.logout k).book = s.book := by
  unfold logout; split <;> rfl

/-- `logout()` forgets its own connection's account. -/
@[simp] theorem logout_account : ((s.logout k).connections k).account = none := by
  unfold logout; split <;> simp_all

/-- `logout()` queues nothing. -/
@[simp] theorem logout_output : ((s.logout k).connections k').output = (s.connections k').output := by
  unfold logout; split
  · rfl
  · simp only [setConnection_connections, Function.update_apply]; split <;> simp_all

/-- `logout()` leaves every read loop running as it was. -/
@[simp] theorem logout_eof : ((s.logout k).connections k').eof = (s.connections k').eof := by
  unfold logout; split
  · rfl
  · simp only [setConnection_connections, Function.update_apply]; split <;> simp_all

/-- Logging out another connection leaves connection `k'`. -/
theorem logout_connections_of_ne (hkk : k ≠ k') : (s.logout k).connections k' = s.connections k' := by
  unfold logout; split <;> simp [Function.update_noteq (Ne.symm hkk)]

/-- `logout()` marks the account its connection was logged into disconnected, with no handler. -/
theorem logout_accounts (a : LOB.AccountId) :
    (s.logout k).authorizer.accounts a = if (s.connections k).account = some a then
      (s.authorizer.accounts a).map fun sa => { sa with isConnected := false, handler := none }
      else s.authorizer.accounts a := by
  unfold logout; split
  case h_1 h => simp [h]
  case h_2 b h => by_cases hab : a = b <;> simp [h, hab, Function.update_noteq, Ne.symm]

end Equations

/-! ## §4 The handlers -/

/-- `handle(LoginRequest)`. -/
def handleLoginRequest (s : Server) (k : Nat) (username password : String) : Server :=
  if (s.connections k).account.isSome then s.send k (.loginResponse .alreadyAuthorized)
  else if !s.authorizer.isValid username password then s.send k (.loginResponse .notAuthorized)
  else
    match s.authorizer.accounts username with
    | some sa =>
      if sa.isConnected then s.send k (.loginResponse .sessionInUse)
      else
        ((s.setAccount username (some { sa with handler := some k, isConnected := true })).setConnection
          k { s.connections k with account := some username }).send k (.loginResponse .accepted)
    -- `is_valid` holds of no user name the map lacks
    | none => s.send k (.loginResponse .notAuthorized)

/-- `handle(LogoutRequest)`. -/
def handleLogoutRequest (s : Server) (k : Nat) : Server :=
  if (s.connections k).account.isNone then s.send k (.logoutResponse .protocolViolation)
  else (s.logout k).send k (.logoutResponse .userRequested)

/-- `handle(OrderRequest)`: price 0 is a market order, answered with order id 0; any other price
is a limit order, answered with the uid `limit` returns. -/
def handleOrderRequest (s : Server) (k : Nat) (price quantity : Nat) (side : Side) : Server :=
  match (s.connections k).account with
  | none => s.send k (.orderResponse orderIdRejected .rejected)
  | some a =>
    if price = orderPriceMarket then
      (s.withBook (LOB.LimitOrderBook.market s.book a (sideToLOBSide side) quantity)).send k
        (.orderResponse orderIdMarket .accepted)
    else
      let r := LOB.LimitOrderBook.limit s.book a (sideToLOBSide side) quantity price
      (s.withBook r.2).send k (.orderResponse r.1 .accepted)

/-- `handle(CancelRequest)`: refuse an absent uid and an order of another account. -/
def handleCancelRequest (s : Server) (k orderId : Nat) : Except LOB.BookError Server :=
  match (s.connections k).account with
  | none => .ok (s.send k (.cancelResponse orderId .rejected))
  | some a =>
    if !LOB.LimitOrderBook.has s.book orderId then .ok (s.send k (.cancelResponse orderId .rejected))
    else do
      let o ← LOB.LimitOrderBook.get s.book orderId
      if o.account ≠ a then pure (s.send k (.cancelResponse orderId .rejected))
      else do
        let e ← LOB.LimitOrderBook.cancel s.book orderId
        pure ((s.withBook e).send k (.cancelResponse orderId .accepted))

/-- The end of `handle(ReplaceRequest)`: place the new order by the raw side byte, through a
`switch` with no `default` (any other byte places nothing and leaves the uid 0), and answer with
both uids. -/
def replaceOrder (s : Server) (k : Nat) (a : LOB.AccountId) (canceled price quantity : Nat)
    (side : Side) : Server :=
  let r : Nat × LOB.Engine :=
    if side = 'S' then LOB.LimitOrderBook.limitSell s.book a quantity price
    else if side = 'B' then LOB.LimitOrderBook.limitBuy s.book a quantity price
    else (orderIdRejected, s.book)
  (s.withBook r.2).send k (.replaceResponse canceled r.1 .accepted)

/-- `handle(ReplaceRequest)`: cancel the order if it is still there and refuse it if it belongs
to another account; then place the new order. -/
def handleReplaceRequest (s : Server) (k orderId price quantity : Nat) (side : Side) :
    Except LOB.BookError Server :=
  match (s.connections k).account with
  | none => .ok (s.send k (.replaceResponse orderId orderIdRejected .rejected))
  | some a =>
    if LOB.LimitOrderBook.has s.book orderId then do
      let o ← LOB.LimitOrderBook.get s.book orderId
      if o.account ≠ a then pure (s.send k (.replaceResponse orderId orderIdRejected .rejected))
      else do
        let e ← LOB.LimitOrderBook.cancel s.book orderId
        pure ((s.withBook e).replaceOrder k a orderId price quantity side)
    else .ok (s.replaceOrder k a orderIdRejected price quantity side)

/-- The loop of `handle(PurgeRequest)`, `while (account->orders.size())` cancel
`*account->orders.begin()`, with a budget of rounds. The `begin()` of the `std::set<Order*>` is the
order of least address, which the allocator decides; here it is the order of least uid. What is
proved of the loop (`LOB.Purged`: the map, the queues, the accounts and the fill log after it) uses
only that each round cancels some order of the set, so it holds for either order; the order of the
`DeleteOrder` messages appended to the feed follows the order of the rounds. -/
def purgeLoop (a : LOB.AccountId) : Nat → Server → Except LOB.BookError Server
  | 0, s => .ok s
  | fuel + 1, s =>
    match ((s.book.accounts a).orders.sort (· ≤ ·)).head? with
    | none => .ok s
    | some uid => do
      let e ← LOB.LimitOrderBook.cancel s.book uid
      purgeLoop a fuel (s.withBook e)

/-- `handle(PurgeRequest)`: cancel every order of the account, one round per order it holds. -/
def handlePurgeRequest (s : Server) (k : Nat) : Except LOB.BookError Server :=
  match (s.connections k).account with
  | none => .ok (s.send k (.purgeResponse .rejected))
  | some a => do
    let s' ← purgeLoop a (s.book.accounts a).orders.card s
    pure (s'.send k (.purgeResponse .accepted))

/-- `handle(Header)`: a frame of unknown kind logs the connection out. -/
def handleHeader (s : Server) (k : Nat) : Server :=
  (s.logout k).send k (.logoutResponse .protocolViolation)

/-- `read_buffer`'s dispatch on the frame's `MessageID`. -/
def handle (s : Server) (k : Nat) : Request → Except LOB.BookError Server
  | .loginRequest username password => .ok (s.handleLoginRequest k username password)
  | .logoutRequest => .ok (s.handleLogoutRequest k)
  | .orderRequest price quantity side => .ok (s.handleOrderRequest k price quantity side)
  | .cancelRequest orderId => s.handleCancelRequest k orderId
  | .replaceRequest orderId price quantity side =>
    s.handleReplaceRequest k orderId price quantity side
  | .purgeRequest => s.handlePurgeRequest k
  | .header => .ok (s.handleHeader k)

/-! ## §5 Runs -/

/-- What can happen on a connection. -/
inductive Event where
  /-- a frame arrives on connection `k` -/
  | frame (k : Nat) (request : Request)
  /-- the peer closes connection `k` -/
  | eof (k : Nat)
  deriving DecidableEq, Repr

/-- One event. A connection whose read loop stopped receives nothing more; end of file logs the
connection out and stops its read loop. -/
def step (s : Server) : Event → Except LOB.BookError Server
  | .frame k r => if (s.connections k).eof then .ok s else s.handle k r
  | .eof k =>
    if (s.connections k).eof then .ok s
    else .ok ((s.logout k).setConnection k { (s.logout k).connections k with eof := true })

theorem step_frame (s : Server) (k : Nat) (r : Request) :
    s.step (.frame k r) = if (s.connections k).eof then .ok s else s.handle k r := rfl

theorem step_eof (s : Server) (k : Nat) :
    s.step (.eof k) = if (s.connections k).eof then .ok s
      else .ok ((s.logout k).setConnection k { (s.logout k).connections k with eof := true }) := rfl

/-- Events one after another, stopping at the first that throws. -/
def run (s : Server) (events : List Event) : Except LOB.BookError Server := events.foldlM step s

/-- Every account `new_user` stores is logged out and has no handler. -/
theorem foldlM_newUser (users : List (String × String)) :
    ∀ auth auth' : Authorizer,
      users.foldlM (fun auth user => auth.newUser user.1 user.2) auth = .ok auth' →
      (∀ a sa, auth.accounts a = some sa → sa.handler = none ∧ sa.isConnected = false) →
      ∀ a sa, auth'.accounts a = some sa → sa.handler = none ∧ sa.isConnected = false := by
  induction users with
  | nil => intro auth auth' h; cases h; exact id
  | cons user users ih =>
    intro auth auth' h hauth
    obtain ⟨auth₁, h₁, h⟩ := bind_eq_ok.mp h
    refine ih auth₁ auth' h fun a sa ha => ?_
    dsimp only [Authorizer.newUser] at h₁
    split at h₁
    · cases h₁
    · cases h₁
      dsimp only at ha
      rw [Function.update_apply] at ha
      split at ha
      · cases ha; exact ⟨rfl, rfl⟩
      · exact hauth a sa ha

/-- **The server as it starts**: every stored account is logged out with no handler, every
connection is fresh, and the book is empty, beside accounts with nothing. -/
theorem init_spec {users : List (String × String)} {s₀ : Server} (h₀ : init users = .ok s₀) :
    (∀ a sa, s₀.authorizer.accounts a = some sa → sa.handler = none ∧ sa.isConnected = false) ∧
      (∀ k, s₀.connections k = Connection.new) ∧
      s₀.book = LOB.Engine.init fun _ => LOB.Account.new := by
  obtain ⟨auth, hauth, h⟩ := bind_eq_ok.mp h₀
  cases h
  exact ⟨foldlM_newUser users _ auth hauth (fun _ _ h => by cases h), fun _ => rfl, rfl⟩

@[simp] theorem run_nil (s : Server) : s.run [] = .ok s := rfl

theorem run_cons_of_step {s t : Server} {ev : Event} (h : s.step ev = .ok t) (events : List Event) :
    s.run (ev :: events) = t.run events := by
  simp [run, h, bind, Except.bind]

/-- The states a server reaches from `s₀` by events that return normally. -/
inductive Reachable (s₀ : Server) : Server → Prop where
  | start : Reachable s₀ s₀
  | step {s s' : Server} (ev : Event) : Reachable s₀ s → s.step ev = .ok s' → Reachable s₀ s'

end Server

end CboeEmulator.OrderEntry

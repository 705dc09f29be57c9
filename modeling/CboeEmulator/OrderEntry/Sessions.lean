import CboeEmulator.OrderEntry.Server

/-!
# Order-Entry Server: Login Bindings

A login binds a connection and an account both ways: the connection's `account` points to
the account, and the account's `handler` points back, with `is_connected` set. `logout()` undoes
both. This module shows that every event keeps the two directions in step. So on every reachable
server the following hold:
- an account is connected exactly when one connection is logged into it;
- that connection is its handler;
- the trade reports of its callbacks go to that connection and nowhere else.

## Main results

- `SameLogins`: what every handler but login, logout and the unknown-frame handler keeps;
- `Bound`: the invariant, with `Bound.logout` and `Bound.bind` for the two updates that move it;
- `step_logins`: what an event can do to the logins: keep them, bind, or log out;
- `Bound.step`: every event keeps the invariant;
- `reachable_sessions_bound`: the bindings of every reachable server;
- `protocol_violation_logs_out`: a frame of unknown kind logs its connection out, is answered
  `LogoutResponse(ProtocolViolation)`, and leaves the connection reading;
- `session_continues_after_protocol_violation`: a connection answered
  `LogoutResponse(ProtocolViolation)` keeps reading, and a later login and order take effect.
-/

namespace CboeEmulator.OrderEntry.Server

open Messages

/-! ## §1 Handlers that leave the logins alone -/

/-- Two servers with one authorizer and the same account on every connection. -/
def SameLogins (s s' : Server) : Prop :=
  s'.authorizer = s.authorizer ∧ ∀ k, (s'.connections k).account = (s.connections k).account

section SameLogins

variable {s s₁ s₂ s' : Server} {k : Nat}

theorem SameLogins.refl (s : Server) : SameLogins s s := ⟨rfl, fun _ => rfl⟩

theorem SameLogins.trans (h₁ : SameLogins s s₁) (h₂ : SameLogins s₁ s₂) : SameLogins s s₂ :=
  ⟨h₂.1.trans h₁.1, fun k => (h₂.2 k).trans (h₁.2 k)⟩

theorem SameLogins.send (s : Server) (k : Nat) (r : Response) : SameLogins s (s.send k r) :=
  ⟨rfl, fun _ => send_account⟩

theorem SameLogins.withBook (s : Server) (e : LOB.Engine) : SameLogins s (s.withBook e) :=
  ⟨withBook_authorizer e, fun _ => withBook_account e⟩

theorem sameLogins_purgeLoop (a : LOB.AccountId) :
    ∀ fuel s s', purgeLoop a fuel s = .ok s' → SameLogins s s'
  | 0, s, _, h => by cases h; exact .refl s
  | fuel + 1, s, s', h => by
    unfold purgeLoop at h
    split at h
    · cases h; exact .refl s
    · obtain ⟨e, -, h⟩ := bind_eq_ok.mp h
      exact (SameLogins.withBook s e).trans (sameLogins_purgeLoop a fuel _ s' h)

theorem sameLogins_handleOrderRequest (price quantity : Nat) (side : Side) :
    SameLogins s (s.handleOrderRequest k price quantity side) := by
  unfold handleOrderRequest
  split
  · exact .send s k _
  · split
    · exact (SameLogins.withBook s _).trans (.send _ k _)
    · exact (SameLogins.withBook s _).trans (.send _ k _)

theorem sameLogins_handleCancelRequest {orderId : Nat}
    (h : s.handleCancelRequest k orderId = .ok s') : SameLogins s s' := by
  unfold handleCancelRequest at h
  split at h
  · cases h; exact .send s k _
  · split at h
    · cases h; exact .send s k _
    · obtain ⟨o, -, h⟩ := bind_eq_ok.mp h
      split at h
      · cases h; exact .send s k _
      · obtain ⟨e, -, h⟩ := bind_eq_ok.mp h
        cases h; exact (SameLogins.withBook s e).trans (.send _ k _)

theorem sameLogins_replaceOrder (a : LOB.AccountId) (canceled price quantity : Nat) (side : Side) :
    SameLogins s (s.replaceOrder k a canceled price quantity side) :=
  (SameLogins.withBook s _).trans (.send _ k _)

theorem sameLogins_handleReplaceRequest {orderId price quantity : Nat} {side : Side}
    (h : s.handleReplaceRequest k orderId price quantity side = .ok s') : SameLogins s s' := by
  unfold handleReplaceRequest at h
  split at h
  · cases h; exact .send s k _
  · split at h
    · obtain ⟨o, -, h⟩ := bind_eq_ok.mp h
      split at h
      · cases h; exact .send s k _
      · obtain ⟨e, -, h⟩ := bind_eq_ok.mp h
        cases h; exact (SameLogins.withBook s e).trans (sameLogins_replaceOrder _ _ _ _ _)
    · cases h; exact sameLogins_replaceOrder _ _ _ _ _

theorem sameLogins_handlePurgeRequest (h : s.handlePurgeRequest k = .ok s') : SameLogins s s' := by
  unfold handlePurgeRequest at h
  split at h
  · cases h; exact .send s k _
  · obtain ⟨s₁, h₁, h⟩ := bind_eq_ok.mp h
    cases h; exact (sameLogins_purgeLoop _ _ s s₁ h₁).trans (.send _ k _)

/-- A login keeps the logins, or binds connection `k`, logged into nothing, to the stored account
`username`, which is not connected. -/
theorem handleLoginRequest_logins (username password : String) :
    SameLogins s (s.handleLoginRequest k username password) ∨
      ∃ sa, (s.connections k).account = none ∧ s.authorizer.accounts username = some sa ∧
        sa.isConnected = false ∧ SameLogins ((s.setAccount username (some { sa with
          handler := some k, isConnected := true })).setConnection k
          { s.connections k with account := some username }) (s.handleLoginRequest k username password) := by
  unfold Server.handleLoginRequest
  split
  · exact .inl (.send s k _)
  next hk =>
    split
    · exact .inl (.send s k _)
    split
    next sa hsa =>
      split
      · exact .inl (.send s k _)
      next hc =>
        exact .inr ⟨sa, Option.not_isSome_iff_eq_none.mp hk, hsa, Bool.not_eq_true _ ▸ hc, .send _ k _⟩
    · exact .inl (.send s k _)

/-- **What an event can do to the logins**: keep them; bind a connection logged into nothing to
a stored account that is not connected; or log a connection out. -/
theorem step_logins {ev : Event} (hs : s.step ev = .ok s') :
    SameLogins s s' ∨
      (∃ k u sa, (s.connections k).account = none ∧ s.authorizer.accounts u = some sa ∧
        sa.isConnected = false ∧ SameLogins ((s.setAccount u (some { sa with
          handler := some k, isConnected := true })).setConnection k
          { s.connections k with account := some u }) s') ∨
      ∃ k, SameLogins (s.logout k) s' := by
  cases ev with
  | frame k r =>
    rw [step_frame] at hs
    split at hs
    · cases hs; exact .inl (.refl s)
    · cases r with
      | loginRequest username password =>
        cases hs
        exact (handleLoginRequest_logins username password).imp_right fun ⟨sa, h⟩ =>
          .inl ⟨k, username, sa, h⟩
      | logoutRequest =>
        cases hs
        unfold handleLogoutRequest
        split
        · exact .inl (.send s k _)
        · exact .inr (.inr ⟨k, .send _ k _⟩)
      | orderRequest price quantity side => cases hs; exact .inl (sameLogins_handleOrderRequest _ _ _)
      | cancelRequest orderId => exact .inl (sameLogins_handleCancelRequest hs)
      | replaceRequest orderId price quantity side => exact .inl (sameLogins_handleReplaceRequest hs)
      | purgeRequest => exact .inl (sameLogins_handlePurgeRequest hs)
      | header => cases hs; exact .inr (.inr ⟨k, .send _ k _⟩)
  | eof k =>
    rw [step_eof] at hs
    split at hs
    · cases hs; exact .inl (.refl s)
    · cases hs
      refine .inr (.inr ⟨k, rfl, fun k' => ?_⟩)
      by_cases hk : k' = k
      · subst hk; simp
      · simp [Function.update_noteq hk]

end SameLogins

/-! ## §2 The invariant -/

/-- The login bindings agree both ways. -/
structure Bound (s : Server) : Prop where
  /-- a connection is logged into a stored, connected account whose handler it is -/
  logged : ∀ k a, (s.connections k).account = some a →
    ∃ sa, s.authorizer.accounts a = some sa ∧ sa.isConnected = true ∧ sa.handler = some k
  /-- a connected account is logged into by its handler -/
  connected : ∀ a sa, s.authorizer.accounts a = some sa → sa.isConnected = true →
    ∃ k, sa.handler = some k ∧ (s.connections k).account = some a
  /-- an account that is not connected has no handler -/
  idle : ∀ a sa, s.authorizer.accounts a = some sa → sa.isConnected = false → sa.handler = none

section Bound

variable {s s' : Server} {k : Nat}

theorem Bound.congr (h : Bound s) (hs : SameLogins s s') : Bound s' := by
  obtain ⟨ha, hc⟩ := hs
  refine ⟨fun k a hk => ?_, fun a sa hsa => ?_, fun a sa hsa => ?_⟩ <;> simp only [ha, hc] at *
  exacts [h.logged k a hk, h.connected a sa hsa, h.idle a sa hsa]

/-- At most one connection is logged into an account. -/
theorem Bound.unique (h : Bound s) {k k' : Nat} {a : LOB.AccountId}
    (hk : (s.connections k).account = some a) (hk' : (s.connections k').account = some a) :
    k = k' := by
  obtain ⟨sa, hsa, -, hh⟩ := h.logged k a hk
  obtain ⟨sa', hsa', -, hh'⟩ := h.logged k' a hk'
  rw [hsa] at hsa'
  cases hsa'
  exact Option.some.inj (hh.symm.trans hh')

/-- **`logout()` keeps the bindings**: the connection and its account let go of each other. -/
theorem Bound.logout (h : Bound s) (k : Nat) : Bound (s.logout k) := by
  unfold Server.logout
  split
  · exact h
  next a hk =>
    obtain ⟨sa, hsa, -, -⟩ := h.logged k a hk
    rw [hsa, Option.map_some']
    refine ⟨fun k' b hb => ?_, fun b sb hb hcb => ?_, fun b sb hb hcb => ?_⟩
    · simp only [setConnection_connections, setAccount_connections, Function.update_apply] at hb
      split_ifs at hb with hk'
      have hba : b ≠ a := fun hba => hk' (h.unique (hba ▸ hb) hk)
      simpa [Function.update_noteq hba] using h.logged k' b hb
    · simp only [setConnection_authorizer, setAccount_accounts, Function.update_apply] at hb
      split_ifs at hb with hba
      · cases hb; cases hcb
      · obtain ⟨k'', hh, hk''⟩ := h.connected b sb hb hcb
        have hne : k'' ≠ k := fun he => hba (Option.some.inj ((he ▸ hk'').symm.trans hk))
        exact ⟨k'', hh, by simpa [Function.update_noteq hne] using hk''⟩
    · simp only [setConnection_authorizer, setAccount_accounts, Function.update_apply] at hb
      split_ifs at hb with hba
      · cases hb; rfl
      · exact h.idle b sb hb hcb

/-- **A successful login keeps the bindings**: a connection logged into nothing and an account
not connected are bound to each other. -/
theorem Bound.bind (h : Bound s) (hk : (s.connections k).account = none) {u : LOB.AccountId}
    {sa : SystemAccount} (hsa : s.authorizer.accounts u = some sa) (hc : sa.isConnected = false) :
    Bound ((s.setAccount u (some { sa with handler := some k, isConnected := true })).setConnection
      k { s.connections k with account := some u }) := by
  refine ⟨fun k' b hb => ?_, fun b sb hb hcb => ?_, fun b sb hb hcb => ?_⟩
  · simp only [setConnection_connections, setAccount_connections, Function.update_apply] at hb
    split_ifs at hb with hk'
    · cases hb; simp [hk']
    · have hbu : b ≠ u := by
        rintro rfl
        obtain ⟨sb, hsb, hcb, -⟩ := h.logged k' b hb
        rw [hsa] at hsb; cases hsb; simp [hc] at hcb
      simpa [Function.update_noteq hbu] using h.logged k' b hb
  · simp only [setConnection_authorizer, setAccount_accounts, Function.update_apply] at hb
    split_ifs at hb with hbu
    · cases hb; exact ⟨k, rfl, by simp [hbu]⟩
    · obtain ⟨k'', hh, hk''⟩ := h.connected b sb hb hcb
      have hne : k'' ≠ k := fun he => by rw [he, hk] at hk''; cases hk''
      exact ⟨k'', hh, by simpa [Function.update_noteq hne] using hk''⟩
  · simp only [setConnection_authorizer, setAccount_accounts, Function.update_apply] at hb
    split_ifs at hb with hbu
    · cases hb; cases hcb
    · exact h.idle b sb hb hcb

/-- **Every event keeps the bindings.** -/
theorem Bound.step (h : Bound s) {ev : Event} (hs : s.step ev = .ok s') : Bound s' := by
  rcases step_logins hs with hl | ⟨k, u, sa, hk, hsa, hc, hl⟩ | ⟨k, hl⟩
  exacts [h.congr hl, (h.bind hk hsa hc).congr hl, (h.logout k).congr hl]

theorem Bound.init {users : List (String × String)} {s₀ : Server} (h₀ : init users = .ok s₀) :
    Bound s₀ := by
  obtain ⟨hauth, hconn, -⟩ := init_spec h₀
  refine ⟨fun k a hk => ?_, fun a sa ha hc => ?_, fun a sa ha _ => (hauth a sa ha).1⟩
  · rw [hconn] at hk; cases hk
  · rw [(hauth a sa ha).2] at hc; cases hc

theorem Reachable.bound {users : List (String × String)} {s₀ s : Server}
    (h₀ : init users = .ok s₀) (h : Reachable s₀ s) : Bound s := by
  induction h with
  | start => exact Bound.init h₀
  | step ev _ hs ih => exact ih.step hs

end Bound

/-! ## §3 The bindings of a reachable server -/

/-- What the spec says of the logins: no two connections are logged into one account; an
account is connected exactly when one connection is logged into it, and that connection, and no
other, is its handler; and so a trade report of a callback on the account is queued on that
connection and on no other. -/
structure SessionsBound (s : Server) : Prop where
  unique : ∀ k k' a, (s.connections k).account = some a → (s.connections k').account = some a →
    k = k'
  connected_iff : ∀ a sa, s.authorizer.accounts a = some sa →
    (sa.isConnected = true ↔ ∃! k, (s.connections k).account = some a)
  handler_iff : ∀ a sa k, s.authorizer.accounts a = some sa →
    (sa.handler = some k ↔ (s.connections k).account = some a)
  report : ∀ (cb : LOB.Callback) k, (s.report cb).connections k =
    if (s.connections k).account = some cb.account then (s.connections k).push cb.tradeResponse
    else s.connections k

section Spec

variable {s : Server}

theorem Bound.handler_iff (h : Bound s) {a : LOB.AccountId} {sa : SystemAccount}
    (ha : s.authorizer.accounts a = some sa) (k : Nat) :
    sa.handler = some k ↔ (s.connections k).account = some a := by
  constructor
  · intro hk
    cases hc : sa.isConnected
    · rw [h.idle a sa ha hc] at hk; cases hk
    · obtain ⟨k', hk', hb⟩ := h.connected a sa ha hc
      rw [hk] at hk'
      exact Option.some.inj hk' ▸ hb
  · intro hk
    obtain ⟨sa', hsa', -, hh⟩ := h.logged k a hk
    rw [ha] at hsa'
    exact Option.some.inj hsa' ▸ hh

/-- The connection a report reaches is the one logged into the callback's account. -/
theorem Bound.handlerOf_iff (h : Bound s) (a : LOB.AccountId) (k : Nat) :
    s.handlerOf a = some k ↔ (s.connections k).account = some a := by
  unfold handlerOf
  cases ha : s.authorizer.accounts a with
  | none =>
    refine ⟨fun h' => (by cases h'), fun hk => ?_⟩
    obtain ⟨sa, hsa, -⟩ := h.logged k a hk
    rw [ha] at hsa; cases hsa
  | some sa => exact h.handler_iff ha k

theorem Bound.sessionsBound (h : Bound s) : SessionsBound s where
  unique _ _ _ hk hk' := h.unique hk hk'
  connected_iff a sa ha := by
    constructor
    · intro hc
      obtain ⟨k, -, hk⟩ := h.connected a sa ha hc
      exact ⟨k, hk, fun k' hk' => h.unique hk' hk⟩
    · rintro ⟨k, hk, -⟩
      obtain ⟨sa', hsa', hc, -⟩ := h.logged k a hk
      rw [ha] at hsa'
      exact Option.some.inj hsa' ▸ hc
  handler_iff _ _ k ha := h.handler_iff ha k
  report cb k := by
    unfold report
    split
    next hn =>
      rw [if_neg fun hk => by rw [(h.handlerOf_iff _ k).mpr hk] at hn; cases hn]
    next k₀ hk₀ =>
      rw [send_connections]
      have hk₀' := (h.handlerOf_iff _ k₀).mp hk₀
      by_cases hk : k = k₀
      · subst hk; simp [hk₀']
      · rw [if_neg hk, if_neg fun hb => hk (h.unique hb hk₀')]

end Spec

/-- **Login bindings on every reachable server.** However login, logout, other requests, unknown
frames and end of file interleave across any number of connections sharing one authorizer: no
two connections are logged into one account; an account is connected exactly when one
connection is logged into it; that connection is its handler; and each trade report of a
callback on the account is queued on that connection, or on none when it is not connected. -/
theorem reachable_sessions_bound (users : List (String × String)) {s₀ s : Server}
    (h₀ : init users = .ok s₀) (h : Reachable s₀ s) : SessionsBound s :=
  (Reachable.bound h₀ h).sessionsBound

theorem sessions_bound_after_login :
    SessionsBound ((⟨⟨Function.update (fun _ => none) "AAAA" (some ⟨"password1234", none, false⟩)⟩,
      LOB.Engine.init fun _ => LOB.Account.new, fun _ => Connection.new⟩ : Server).handleLoginRequest
        0 "AAAA" "password1234") :=
  reachable_sessions_bound [("AAAA", "password1234")] rfl
    (.step (.frame 0 (.loginRequest "AAAA" "password1234")) .start rfl)

/-! ## §4 A protocol violation logs out and does not end the session

`read_buffer` arms the next read before it dispatches the frame it holds, and `handle(Header)`
does what its comment says: it logs the connection out and queues
`LogoutResponse(ProtocolViolation)`. Nothing closes the socket or stops the read loop, so every
later frame is handled as on a logged-out connection: a login binds it again, and its requests
reach the book. -/

/-- `handle(Header)` leaves every read loop running as it was. -/
@[simp] theorem handleHeader_eof (s : Server) (k k' : Nat) :
    ((s.handleHeader k).connections k').eof = (s.connections k').eof := by
  simp [handleHeader]

/-- After a protocol violation on a running connection, its next frame is handled. -/
theorem step_after_header {s s₁ : Server} {k : Nat} (hk : (s.connections k).eof = false)
    (hs : s.step (.frame k .header) = .ok s₁) (r : Request) :
    s₁.step (.frame k r) = s₁.handle k r := by
  rw [step_frame, hk, if_neg Bool.false_ne_true] at hs
  cases hs
  rw [step_frame, handleHeader_eof, hk, if_neg Bool.false_ne_true]

/-- **A protocol violation logs the session out, and the session goes on.** On every server, a
frame of unknown kind on a running connection `k` is answered `LogoutResponse(ProtocolViolation)`,
queued last on `k`. It logs `k` out: `k` is bound to no account, and the account it was bound to
is stored disconnected, with no handler. The book, every other connection and every other account
are as they were. The read loop keeps running, so the next frame on `k` is handled. -/
theorem protocol_violation_logs_out {s s₁ : Server} {k : Nat} (hk : (s.connections k).eof = false)
    (hs : s.step (.frame k .header) = .ok s₁) :
    s₁.book = s.book ∧
      (s₁.connections k).output.map (·.response) =
        (s.connections k).output.map (·.response) ++ [.logoutResponse .protocolViolation] ∧
      (s₁.connections k).account = none ∧
      (∀ j, j ≠ k → s₁.connections j = s.connections j) ∧
      (∀ a, s₁.authorizer.accounts a = if (s.connections k).account = some a then
        (s.authorizer.accounts a).map fun sa => { sa with isConnected := false, handler := none }
        else s.authorizer.accounts a) ∧
      ∀ r, s₁.step (.frame k r) = s₁.handle k r := by
  have hnext := step_after_header hk hs
  rw [step_frame, hk, if_neg Bool.false_ne_true] at hs
  cases hs
  refine ⟨by simp [handleHeader], ?_, by simp [handleHeader, send_connections], fun j hj => ?_,
    fun a => by simp [handleHeader, logout_accounts], hnext⟩
  · simp [handleHeader, send_connections, Connection.push]
  · rw [handleHeader, send_connections, if_neg hj, logout_connections_of_ne (Ne.symm hj)]

theorem violation_logs_out_after_login :
    ((((⟨⟨Function.update (fun _ => none) "AAAA" (some ⟨"password1234", none, false⟩)⟩,
      LOB.Engine.init fun _ => LOB.Account.new, fun _ => Connection.new⟩ : Server).handleLoginRequest
        0 "AAAA" "password1234").handleHeader 0).connections 0).account = none ∧
    (((⟨⟨Function.update (fun _ => none) "AAAA" (some ⟨"password1234", none, false⟩)⟩,
      LOB.Engine.init fun _ => LOB.Account.new, fun _ => Connection.new⟩ : Server).handleLoginRequest
        0 "AAAA" "password1234").handleHeader 0).authorizer.accounts "AAAA" =
      some ⟨"password1234", none, false⟩ :=
  have h := protocol_violation_logs_out (s := (⟨⟨Function.update (fun _ => none) "AAAA"
    (some ⟨"password1234", none, false⟩)⟩, LOB.Engine.init fun _ => LOB.Account.new,
      fun _ => Connection.new⟩ : Server).handleLoginRequest 0 "AAAA" "password1234") (k := 0) rfl rfl
  ⟨h.2.2.1, by rw [h.2.2.2.2.1]; rfl⟩

/-- **A session outlives its protocol violation.** A client logs in, sends a frame of unknown
kind and is answered `LogoutResponse(ProtocolViolation)`; it then logs in again and places an
order. The server accepts both: the connection is bound to the account again and the order rests
in the book under uid 1. Every request but the unknown frame fits its fields, as a client sends
it; the unknown frame is any packet whose `MessageID` is not a request's. -/
theorem session_continues_after_protocol_violation :
    (∀ r ∈ [Request.loginRequest "AAAA" "password1234", .orderRequest 100 10 'S'], r.Fits) ∧
    ∃ s, ((⟨⟨Function.update (fun _ => none) "AAAA" (some ⟨"password1234", none, false⟩)⟩,
      LOB.Engine.init fun _ => LOB.Account.new, fun _ => Connection.new⟩ : Server).run
        [.frame 0 (.loginRequest "AAAA" "password1234"), .frame 0 .header,
          .frame 0 (.loginRequest "AAAA" "password1234"), .frame 0 (.orderRequest 100 10 'S')]) = .ok s ∧
      (s.connections 0).output.map (·.response) = [.loginResponse .accepted,
        .logoutResponse .protocolViolation, .loginResponse .accepted, .orderResponse 1 .accepted] ∧
      (s.connections 0).account = some "AAAA" ∧
      s.book.orders.lookup 1 = some ⟨1, .sell, 10, 100, some 100, "AAAA"⟩ :=
  ⟨by decide, _, rfl, rfl, rfl, rfl⟩

end CboeEmulator.OrderEntry.Server

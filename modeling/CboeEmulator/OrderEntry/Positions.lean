import CboeEmulator.OrderEntry.Authorization
import CboeEmulator.OrderEntry.Sessions
import CboeEmulator.OrderEntry.Conservation

/-!
# Order-Entry Server: Positions Sum to Zero

Every share one account of the venue buys, another sells to it, at one price. The server changes
its book only by `limit`, `market` and `cancel` calls for accounts a connection is logged into
(`step_reported`). A connection is logged only into an account the authorizer stores (`Bound`).
The authorizer stores the configured users, and no other name, for the whole run. So every call
is for a configured user, and by `Reachable.conserves` every account holds what the fill log books
to it, and the sums of shares and of capital over the configured users never leave the zero they
start at.

## Main results

- `SameStored`: what every event keeps of the authorizer, the names it stores accounts under;
- `Reachable.calls`: the book of a reachable server is reached by calls for stored accounts;
- `server_zero_sum`: on every reachable server, each account holds exactly what the fill log
  books to it, the log pairs opposite fills between configured users, and over the configured
  users shares and capital each sum to zero, modulo 2^64.
-/

namespace CboeEmulator.OrderEntry.Server

open Messages

/-! ## §1 The names the authorizer stores -/

/-- Two servers whose authorizers store accounts under the same names. -/
def SameStored (s s' : Server) : Prop :=
  ∀ a, (s'.authorizer.accounts a).isSome = (s.authorizer.accounts a).isSome

section SameStored

variable {s s₁ s₂ s' : Server} {k : Nat}

theorem SameStored.trans (h₁ : SameStored s s₁) (h₂ : SameStored s₁ s₂) : SameStored s s₂ :=
  fun a => (h₂ a).trans (h₁ a)

theorem SameLogins.sameStored (h : SameLogins s s') : SameStored s s' := fun a => by rw [h.1]

/-- Rewriting the account stored under `u` by one that is stored exactly when it was. -/
theorem sameStored_setAccount {u : LOB.AccountId} {sa : Option SystemAccount}
    (h : sa.isSome = (s.authorizer.accounts u).isSome) (c : Connection) :
    SameStored s ((s.setAccount u sa).setConnection k c) := fun b => by
  by_cases hb : b = u
  · subst hb; simpa using h
  · simp [Function.update_noteq hb]

/-- `logout()` rewrites the account it forgets, and stores it on. -/
theorem sameStored_logout (s : Server) (k : Nat) : SameStored s (s.logout k) := by
  unfold Server.logout
  split
  · exact fun _ => rfl
  · exact sameStored_setAccount (by simp) _

/-- **Every event keeps the names the authorizer stores accounts under.** -/
theorem sameStored_step {ev : Event} (hs : s.step ev = .ok s') : SameStored s s' := by
  rcases step_logins hs with hl | ⟨k, u, sa, -, hsa, -, hl⟩ | ⟨k, hl⟩
  · exact hl.sameStored
  · exact (sameStored_setAccount (by simp [hsa]) _).trans hl.sameStored
  · exact (sameStored_logout s k).trans hl.sameStored

theorem Reachable.stored {s₀ s : Server} (h : Reachable s₀ s) : SameStored s₀ s := by
  induction h with
  | start => exact fun _ => rfl
  | step _ _ hs ih => exact ih.trans (sameStored_step hs)

end SameStored

/-- `new_user` stores accounts under the configured user names only. -/
theorem foldlM_newUser_stored {S : Finset LOB.AccountId} (users : List (String × String))
    (hS : ∀ u ∈ users, u.1 ∈ S) :
    ∀ auth auth' : Authorizer,
      users.foldlM (fun auth user => auth.newUser user.1 user.2) auth = .ok auth' →
      (∀ a, (auth.accounts a).isSome → a ∈ S) → ∀ a, (auth'.accounts a).isSome → a ∈ S := by
  induction users with
  | nil => intro auth auth' h; cases h; exact id
  | cons user users ih =>
    intro auth auth' h hauth
    obtain ⟨auth₁, h₁, h⟩ := bind_eq_ok.mp h
    refine ih (fun u hu => hS u (.tail _ hu)) auth₁ auth' h fun a ha => ?_
    dsimp only [Authorizer.newUser] at h₁
    split at h₁
    · cases h₁
    · cases h₁
      dsimp only at ha
      rw [Function.update_apply] at ha
      split at ha
      · subst_vars; exact hS user (.head _)
      · exact hauth a ha

/-! ## §2 The calls of a reachable server -/

/-- **Every call of a reachable server is for a stored account**: its book is reached from the
starting book by `limit`, `market` and `cancel` calls, each for an account the authorizer stored
at the start. -/
theorem Reachable.calls {users : List (String × String)} {s₀ s : Server}
    (h₀ : init users = .ok s₀) (h : Reachable s₀ s) :
    LOB.Reachable (fun r => r.Reported ∧ ∀ a, r.account = some a →
      (s₀.authorizer.accounts a).isSome) s₀.book s.book := by
  induction h with
  | start => exact .start
  | step _ hr hs ih =>
    refine ih.trans ((step_reported hs).mono fun r ⟨hrep, hacc⟩ => ⟨hrep, fun a ha => ?_⟩)
    obtain ⟨k, hk⟩ := hacc a ha
    obtain ⟨sa, hsa, -⟩ := (hr.bound h₀).logged k a hk
    rw [← hr.stored a, hsa]; rfl

/-! ## §3 Positions sum to zero -/

/-- **Positions sum to zero.** On every server reachable from its start, take any set `S` of
accounts that holds the configured users. The book was reached by `limit`, `market` and `cancel`
calls for accounts of `S` only, and every resting order is for an account of `S`. Its fill log is
a list of (maker, taker) pairs of callbacks of opposite sides, one quantity and one price, both
on accounts of `S`. Every account's shares and capital are exactly what its callbacks in the log
book by the side rule of `Account::fill`. So the shares over `S` sum to zero, and so does the
capital, modulo 2^64. -/
theorem server_zero_sum {users : List (String × String)} {s₀ s : Server}
    (h₀ : init users = .ok s₀) (h : Reachable s₀ s) {S : Finset LOB.AccountId}
    (hS : ∀ u ∈ users, u.1 ∈ S) :
    LOB.Reachable (fun r => r.Reported ∧ ∀ a, r.account = some a → a ∈ S) s₀.book s.book ∧
      LOB.Covers S s.book ∧
      (∃ ps, s.book.fills = LOB.pairFills ps ∧
        ∀ p ∈ ps, LOB.Opposite p ∧ p.1.account ∈ S ∧ p.2.account ∈ S) ∧
      (∀ a, (s.book.accounts a).shares = LOB.sharesBooked a s.book.fills ∧
        (s.book.accounts a).capital = LOB.capitalBooked a s.book.fills) ∧
      LOB.sharesOver S s.book = 0 ∧ LOB.capitalOver S s.book = 0 := by
  have hstored : ∀ a, (s₀.authorizer.accounts a).isSome → a ∈ S := by
    obtain ⟨auth, hauth, h₀⟩ := bind_eq_ok.mp h₀
    cases h₀
    exact foldlM_newUser_stored users hS _ auth hauth fun _ h => by cases h
  have hrun : LOB.Reachable (fun r => r.Reported ∧ ∀ a, r.account = some a → a ∈ S) s₀.book
      s.book := (h.calls h₀).mono fun _ hr => ⟨hr.1, fun a ha => hstored a (hr.2 a ha)⟩
  refine ⟨hrun, ?_⟩
  rw [(init_spec h₀).2.2] at hrun
  obtain ⟨-, hcov, ⟨ps, hf, hbk, hp⟩, hsh, hca⟩ :=
    hrun.conserves (LOB.Inv.init _) fun _ _ hu => by cases hu
  have hf' : s.book.fills = LOB.pairFills ps := hf
  refine ⟨hcov, ⟨ps, hf', hp⟩, fun a => ?_, hsh.trans (Finset.sum_eq_zero fun _ _ => rfl),
    hca.trans (Finset.sum_eq_zero fun _ _ => rfl)⟩
  rw [hf']
  simpa [LOB.Engine.init, LOB.Account.new] using hbk a

theorem server_zero_sum_after_trade :
    LOB.sharesOver {"AAAA", "BBBB"} (((((⟨⟨Function.update (Function.update (fun _ => none)
        "AAAA" (some ⟨"password1234", none, false⟩)) "BBBB" (some ⟨"password5678", none, false⟩)⟩,
        LOB.Engine.init fun _ => LOB.Account.new, fun _ => Connection.new⟩ : Server).handleLoginRequest
          0 "AAAA" "password1234").handleLoginRequest 1 "BBBB" "password5678").handleOrderRequest
          0 100 10 'S').handleOrderRequest 1 100 4 'B').book = 0 ∧
      ((((((⟨⟨Function.update (Function.update (fun _ => none)
        "AAAA" (some ⟨"password1234", none, false⟩)) "BBBB" (some ⟨"password5678", none, false⟩)⟩,
        LOB.Engine.init fun _ => LOB.Account.new, fun _ => Connection.new⟩ : Server).handleLoginRequest
          0 "AAAA" "password1234").handleLoginRequest 1 "BBBB" "password5678").handleOrderRequest
          0 100 10 'S').handleOrderRequest 1 100 4 'B').book.accounts "BBBB").shares =
        LOB.sharesBooked "BBBB" (((((⟨⟨Function.update (Function.update (fun _ => none)
        "AAAA" (some ⟨"password1234", none, false⟩)) "BBBB" (some ⟨"password5678", none, false⟩)⟩,
        LOB.Engine.init fun _ => LOB.Account.new, fun _ => Connection.new⟩ : Server).handleLoginRequest
          0 "AAAA" "password1234").handleLoginRequest 1 "BBBB" "password5678").handleOrderRequest
          0 100 10 'S').handleOrderRequest 1 100 4 'B').book.fills :=
  have h := @server_zero_sum [("AAAA", "password1234"), ("BBBB", "password5678")] _ _ rfl
    (.step (.frame 1 (.orderRequest 100 4 'B'))
      (.step (.frame 0 (.orderRequest 100 10 'S'))
        (.step (.frame 1 (.loginRequest "BBBB" "password5678"))
          (.step (.frame 0 (.loginRequest "AAAA" "password1234")) .start rfl) rfl) rfl) rfl)
    {"AAAA", "BBBB"} (by simp)
  ⟨h.2.2.2.2.1, (h.2.2.2.1 "BBBB").1⟩

end CboeEmulator.OrderEntry.Server

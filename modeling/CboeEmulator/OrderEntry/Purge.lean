import CboeEmulator.OrderEntry.Authorization

/-!
# Order-Entry Server: Purge

`handle(PurgeRequest)` cancels `*account->orders.begin()` while the account's set is non-empty.
On every reachable server the set holds exactly the uids the map holds for the account
(`AccountsOk`). So each round finds its uid in the map, and `cancel` takes that uid out of the
map, out of its side's queue and out of the set, and nothing else. The set loses one uid per
round, and the loop stops after exactly as many rounds as the set had uids. The other accounts'
orders keep their records and their places in their FIFOs, no balance moves, and the connection
hears only `PurgeResponse(Accepted)`.

## Main definitions

- `Purged a U e e'`: `e'` is `e` with the orders of `U`, all of account `a`, canceled.

## Main results

- `AccountsOk.cancel_purged`: one round;
- `BookInv.purgeLoop_card`: a budget of `i` rounds leaves `|A.orders| - i` orders;
- `BookInv.purgeLoop_purged`: the loop with a budget of `|A.orders|` rounds cancels them all;
- `purge_cancels_account_orders`: the handler on every reachable server.
-/

namespace CboeEmulator.OrderEntry

open Messages

namespace LOB

/-! ## §1 Canceling a set of orders -/

/-- `e'` is `e` with the orders of `U`, all of account `a`, canceled: their records leave the
map, their uids leave the queues (the others keep their places) and `a`'s set, and no balance,
no other account and no callback changes. -/
structure Purged (a : AccountId) (U : Finset Nat) (e e' : Engine) : Prop where
  orders : ∀ u, e'.orders.lookup u = if u ∈ U then none else e.orders.lookup u
  queued : ∀ side, (e'.trees side).queued = (e.trees side).queued.filter (· ∉ U)
  account : e'.accounts a = { e.accounts a with orders := (e.accounts a).orders \ U }
  others : ∀ b, b ≠ a → e'.accounts b = e.accounts b
  fills : e'.fills = e.fills

namespace Purged

variable {a : AccountId} {U V : Finset Nat} {e e₁ e₂ : Engine}

theorem refl (a : AccountId) (e : Engine) : Purged a ∅ e e where
  orders _ := by simp
  queued _ := by simp
  account := by simp
  others _ _ := rfl
  fills := rfl

theorem trans (h₁ : Purged a U e e₁) (h₂ : Purged a V e₁ e₂) : Purged a (U ∪ V) e e₂ where
  orders u := by
    rw [h₂.orders, h₁.orders]
    by_cases hu : u ∈ U <;> by_cases hv : u ∈ V <;> simp [hu, hv]
  queued side := by
    rw [h₂.queued, h₁.queued, List.filter_filter]
    exact List.filter_congr fun u _ => by by_cases hu : u ∈ U <;> simp [hu]
  account := by rw [h₂.account, h₁.account]; simp [sdiff_sdiff_left, Finset.sup_eq_union]
  others b hb := (h₂.others b hb).trans (h₁.others b hb)
  fills := h₂.fills.trans h₁.fills

end Purged

section Cancel

variable {e : Engine}

/-- **One round of the purge loop.** On a book with exact sets, a uid of `a`'s set keys an order
of `a` in the map, and `cancel` of it returns normally and takes exactly that order away. -/
theorem AccountsOk.cancel_purged (h : AccountsOk [] e) (hi : Inv e) {a : AccountId} {u : Nat}
    (hu : u ∈ (e.accounts a).orders) :
    ∃ e', LimitOrderBook.cancel e u = .ok e' ∧ Purged a {u} e e' := by
  obtain ⟨-, o, ho, hoa⟩ := (h a u).mp hu
  obtain ⟨hq, hou⟩ := hi.book.queued_of_lookup ho
  subst hoa hou
  refine ⟨{ LimitTree.cancel o.side e o with orders := e.orders.erase o.uid },
    by simp only [LimitOrderBook.cancel, ho]; rfl, ⟨fun v => ?_, fun side => ?_, ?_, fun b hb => ?_, rfl⟩⟩
  · by_cases hv : v = o.uid
    · subst hv; simp [AList.lookup_erase]
    · simp [AList.lookup_erase_ne hv, hv]
  · have hnd := hi.book.queued_nodup side
    simp only [cancel_trees, Function.update_apply]
    split
    case isTrue hs =>
      subst hs
      rw [((hi.book.trees _).remove (hi.book.queued_nodup _) ho hq fun _ _ _ => rfl).2.1,
        hnd.erase_eq_filter]
      exact List.filter_congr fun v _ => by by_cases hv : v = o.uid <;> simp [hv]
    case isFalse hs =>
      have hnq : o.uid ∉ (e.trees side).queued := by
        rcases Side.eq_or_eq_not side o.side with rfl | rfl
        · exact absurd rfl hs
        · exact (hi.book.not_mem_other hq).1
      exact (List.filter_eq_self.mpr fun v hv => by
        simpa using fun he : v = o.uid => hnq (he ▸ hv)).symm
  · simp [LimitTree.cancel, Account.cancel, Finset.sdiff_singleton_eq_erase]
  · simp [LimitTree.cancel, Function.update_noteq hb]

end Cancel

end LOB

namespace Server

/-! ## §2 The purge loop -/

section Loop

variable {a : LOB.AccountId}

/-- A call of the book that fires no callback reports nothing. -/
theorem withBook_of_fills {s : Server} {e : LOB.Engine} (he : e.fills = s.book.fills) :
    s.withBook e = { s with book := e } := by
  simp only [withBook, he, List.drop_length, List.foldl_nil]

/-- The loop's test: the sorted set has no head only when the set is empty. -/
theorem eq_empty_of_head_sort {S : Finset Nat} (h : (S.sort (· ≤ ·)).head? = none) : S = ∅ := by
  rw [← Finset.sort_toFinset (· ≤ ·) S, List.head?_eq_none_iff.mp h]
  rfl

/-- The uid a purge round cancels is in the account's set. -/
theorem mem_of_head_sort {S : Finset Nat} {u : Nat} (hu : (S.sort (· ≤ ·)).head? = some u) :
    u ∈ S :=
  (Finset.mem_sort _).mp (List.mem_of_mem_head? hu)

/-- The round budget of the loop: a budget of `i` rounds leaves `|A.orders| - i` orders, so each
round removes exactly one until none is left. -/
theorem BookInv.purgeLoop_card : ∀ (i : Nat) (s : Server), BookInv s →
    ∃ s', purgeLoop a i s = .ok s' ∧ BookInv s' ∧
      (s'.book.accounts a).orders.card = (s.book.accounts a).orders.card - i
  | 0, s, h => ⟨s, rfl, h, rfl⟩
  | i + 1, s, h => by
    unfold purgeLoop
    split
    case h_1 hn =>
      refine ⟨s, rfl, h, ?_⟩
      simp [eq_empty_of_head_sort hn]
    case h_2 u hu =>
      obtain ⟨e, he, hp⟩ := h.2.cancel_purged h.1 (mem_of_head_sort hu)
      obtain ⟨s', hs', h', hc⟩ := BookInv.purgeLoop_card i (s.withBook e) (h.apply (.cancel u) (by simp) he)
      refine ⟨s', by rw [he]; exact hs', h', ?_⟩
      rw [hc, withBook_book, hp.account, Finset.sdiff_singleton_eq_erase,
        Finset.card_erase_of_mem (mem_of_head_sort hu)]
      omega

/-- **The purge loop cancels the account's orders.** With a budget of at least `|A.orders|`
rounds, the loop returns normally having canceled exactly the orders of `A`'s set, sent nothing
and left every login alone. -/
theorem BookInv.purgeLoop_purged : ∀ (n : Nat) (s : Server), BookInv s →
    (s.book.accounts a).orders.card ≤ n →
    ∃ s', purgeLoop a n s = .ok s' ∧ BookInv s' ∧
      LOB.Purged a (s.book.accounts a).orders s.book s'.book ∧
      s'.connections = s.connections ∧ s'.authorizer = s.authorizer
  | 0, s, h, hn => by
    rw [Finset.card_eq_zero.mp (Nat.le_zero.mp hn)]
    exact ⟨s, rfl, h, .refl a s.book, rfl, rfl⟩
  | n + 1, s, h, hn => by
    unfold purgeLoop
    split
    case h_1 hnil =>
      rw [eq_empty_of_head_sort hnil]
      exact ⟨s, rfl, h, .refl a s.book, rfl, rfl⟩
    case h_2 u hu =>
      have hmem := mem_of_head_sort hu
      obtain ⟨e, he, hp⟩ := h.2.cancel_purged h.1 hmem
      have hw := withBook_of_fills (s := s) hp.fills
      have hcard : ((s.withBook e).book.accounts a).orders.card ≤ n := by
        rw [withBook_book, hp.account, Finset.sdiff_singleton_eq_erase,
          Finset.card_erase_of_mem hmem]
        omega
      obtain ⟨s', hs', h', hp', hc, hauth⟩ :=
        BookInv.purgeLoop_purged n (s.withBook e) (h.apply (.cancel u) (by simp) he) hcard
      refine ⟨s', by rw [he]; exact hs', h', ?_, by rw [hc, hw], by rw [hauth, hw]⟩
      rw [withBook_book, hp.account, Finset.sdiff_singleton_eq_erase] at hp'
      have := hp.trans hp'
      rwa [← Finset.insert_eq, Finset.insert_erase hmem] at this

end Loop

/-! ## §3 The handler on every reachable server -/

/-- **Purge terminates and cancels exactly the account's orders.** On every reachable server, for
every connection `k` logged into an account `a` whose order set is `S`:
- a budget of `i` rounds of the loop leaves `|S| - i` orders, so the loop runs exactly `|S|`
  rounds, each removing one uid from `S`;
- `handle(PurgeRequest)` returns normally, and afterwards `a`'s set is empty and the map holds no
  order of `a`;
- every record of another account is kept, and each side's queue is the old one with `S`
  filtered out, so every other order keeps its place in its FIFO;
- no account's shares or capital change, and no other account changes at all;
- the frames queued are the old ones and `PurgeResponse(Accepted)` on `k`. -/
theorem purge_cancels_account_orders {users : List (String × String)} {s₀ s : Server}
    (h₀ : init users = .ok s₀) (h : Reachable s₀ s) {k : Nat} {a : LOB.AccountId}
    (hk : (s.connections k).account = some a) :
    (∀ i, ∃ s', purgeLoop a i s = .ok s' ∧
      (s'.book.accounts a).orders.card = (s.book.accounts a).orders.card - i) ∧
    ∃ s', s.handlePurgeRequest k = .ok s' ∧
      (s'.book.accounts a).orders = ∅ ∧
      (∀ u o, s'.book.orders.lookup u = some o → o.account ≠ a) ∧
      (∀ u o, s.book.orders.lookup u = some o → o.account ≠ a → s'.book.orders.lookup u = some o) ∧
      (∀ side, (s'.book.trees side).queued =
        (s.book.trees side).queued.filter (· ∉ (s.book.accounts a).orders)) ∧
      (∀ b, (s'.book.accounts b).shares = (s.book.accounts b).shares ∧
        (s'.book.accounts b).capital = (s.book.accounts b).capital) ∧
      (∀ b, b ≠ a → s'.book.accounts b = s.book.accounts b) ∧
      s'.connections = (s.send k (.purgeResponse .accepted)).connections := by
  have hb := h.bookInv h₀
  refine ⟨fun i => ?_, ?_⟩
  · obtain ⟨s', hs', -, hc⟩ := hb.purgeLoop_card (a := a) i s
    exact ⟨s', hs', hc⟩
  obtain ⟨s₁, hs₁, -, hp, hc, -⟩ := hb.purgeLoop_purged (a := a) _ s le_rfl
  -- a record keyed in `a`'s set is `a`'s, and every record of `a` is keyed in it
  have hS : ∀ u o, s.book.orders.lookup u = some o → (u ∈ (s.book.accounts a).orders ↔ o.account = a) :=
    fun u o ho => by
      rw [hb.2 a u]
      exact ⟨fun ⟨_, o', ho', hoa⟩ => (Option.some.inj (ho.symm.trans ho')) ▸ hoa,
        fun hoa => ⟨List.not_mem_nil u, o, ho, hoa⟩⟩
  refine ⟨s₁.send k (.purgeResponse .accepted), by simp [handlePurgeRequest, hk, hs₁], ?_,
    fun u o ho hoa => ?_, fun u o ho hoa => ?_, fun side => by simpa using hp.queued side,
    fun b => ?_, fun b hb => by simpa using hp.others b hb, by simp [send, hc]⟩
  · simp [hp.account]
  · rw [send_book, hp.orders] at ho
    split at ho
    · cases ho
    case isFalse hu => exact hu ((hS u o ho).mpr hoa)
  · rw [send_book, hp.orders, if_neg fun hu => hoa ((hS u o ho).mp hu)]
    exact ho
  · by_cases hba : b = a
    · subst hba; simp [hp.account]
    · simp [hp.others b hba]

theorem purge_after_login_and_order :
    let s := ((⟨⟨Function.update (fun _ => none) "AAAA" (some ⟨"password1234", none, false⟩)⟩,
      LOB.Engine.init fun _ => LOB.Account.new, fun _ => Connection.new⟩ : Server).handleLoginRequest
        0 "AAAA" "password1234").handleOrderRequest 0 100 10 'S'
    (∀ i, ∃ s', purgeLoop "AAAA" i s = .ok s' ∧
      (s'.book.accounts "AAAA").orders.card = (s.book.accounts "AAAA").orders.card - i) ∧
    ∃ s', s.handlePurgeRequest 0 = .ok s' ∧
      (s'.book.accounts "AAAA").orders = ∅ ∧
      (∀ u o, s'.book.orders.lookup u = some o → o.account ≠ "AAAA") ∧
      (∀ u o, s.book.orders.lookup u = some o → o.account ≠ "AAAA" → s'.book.orders.lookup u = some o) ∧
      (∀ side, (s'.book.trees side).queued =
        (s.book.trees side).queued.filter (· ∉ (s.book.accounts "AAAA").orders)) ∧
      (∀ b, (s'.book.accounts b).shares = (s.book.accounts b).shares ∧
        (s'.book.accounts b).capital = (s.book.accounts b).capital) ∧
      (∀ b, b ≠ "AAAA" → s'.book.accounts b = s.book.accounts b) ∧
      s'.connections = (s.send 0 (.purgeResponse .accepted)).connections :=
  @purge_cancels_account_orders [("AAAA", "password1234")] _ _ rfl
    (.step (.frame 0 (.orderRequest 100 10 'S'))
      (.step (.frame 0 (.loginRequest "AAAA" "password1234")) .start rfl) rfl) 0 "AAAA" rfl

end Server

end CboeEmulator.OrderEntry

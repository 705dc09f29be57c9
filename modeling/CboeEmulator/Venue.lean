import CboeEmulator.DataFeed.Mirror
import CboeEmulator.OrderEntry.Uids

/-!
# The Venue: the Server, its Command Line and the Feed They Share

`venue/server.cpp` runs three services on one `asio` context: the order-entry `Server`, whose book
reports every change to the `DataFeed::Sender`; a `Handlers::ServerCLI` that reads commands from
the console; and a `ServerHeartbeat` that only prints. The command line holds the trading
session's flag. `start` sends `StartOfSession` on the same sender unless a session is active, and
`end` sends `EndOfSession` unless none is. The feed is therefore the book's messages with the
session's messages between them, in the order the two were handed to the sender.

The venue here is the server, the command line and the sender's log, stepping by an event on the
order-entry port or a line read from the console, in any interleaving. A receiver that replays
the feed from the start ends in the venue's state: it holds the server's book, and its session
flag is the command line's. The session messages on the feed alternate, starting with
`StartOfSession`.

## Main definitions

- `DataFeed.Messages.Message.isSession`, `LOB.BookFeed`: the messages that carry no book change,
  and a book that has sent none of them.
- `ServerCLI`, `ServerCLI.startOfSession`, `ServerCLI.endOfSession`, `ServerCLI.parse`.
- `Venue`, `Venue.Event`, `Venue.init`, `Venue.step`, `Venue.Reachable`.
- `sessionMessages`: `StartOfSession`, `EndOfSession`, `StartOfSession`, … ;
- `Venue.Mirrored`: a receiver that replays the venue's feed and holds its book and flag.

## Main results

- `LOB.BookFeed.apply`: no call the server makes into the book sends a session message.
- `ServerCLI.parse_cases`: a line sends nothing, or flips the session and sends its message.
- `Venue.Mirrored.command`, `Venue.Mirrored.server`: a line on the console and an event on the
  order-entry port keep a replaying receiver in step with the venue;
- `Venue.Reachable.mirrored`: the run lemma.
- `venue_feed_mirrored`: on every venue reachable from its start, a receiver that replays the
  feed holds the server's book and the command line's session flag, and the feed's session
  messages alternate.

## Representation

- `std::regex_match` of the patterns `^start\n$` and `^end\n$` (ECMAScript, without `multiline`)
  matches exactly the lines `"start\n"` and `"end\n"`; `CLI::read_command_line` hands `parse` each
  line with its newline.
- The `std::cout` lines of the command line and the heartbeat change no state and are left out.
-/

namespace CboeEmulator

namespace DataFeed.Messages

/-- `StartOfSession` and `EndOfSession`, the messages that carry no book change. -/
def Message.isSession : Message → Bool
  | .startOfSession | .endOfSession => true
  | _ => false

end DataFeed.Messages

open DataFeed.Messages (Message)
open DataFeed (Receiver Replays)

/-! ## §1 The book sends no session message -/

namespace OrderEntry.LOB

/-- Every message the book has handed the feed is a book message. -/
def BookFeed (e : Engine) : Prop := ∀ m ∈ e.feed, m.isSession = false

section BookFeed

variable {side : Side} {e e' : Engine} {o o' : Order}

theorem BookFeed.snoc (h : BookFeed e) {m : Message} (he : e'.feed = e.feed ++ [m])
    (hm : m.isSession = false) : BookFeed e' := by
  intro m' hm'
  rw [he, List.mem_append, List.mem_singleton] at hm'
  rcases hm' with hm' | rfl
  exacts [h m' hm', hm]

/-- A round of the matching loop sends one `Trade`. -/
theorem BookFeed.marketStep (h : BookFeed e)
    (hs : LimitTree.marketStep side e o = some (e', o')) : BookFeed e' := by
  obtain ⟨_, _, _, _, _, _, _, _, _, _, hr⟩ := marketStep_eq_some hs
  split at hr <;> obtain ⟨rfl, -⟩ := Prod.ext_iff.mp hr <;> exact h.snoc rfl rfl

theorem BookFeed.market (h : BookFeed e) (side : Side) (o : Order) :
    BookFeed (LimitTree.market side e o).1 :=
  marketLoop_invariant (P := fun e _ => BookFeed e) (fun _ _ _ _ hP hs => hP.marketStep hs) _ e o h

/-- Resting an order sends one `AddOrder`. -/
theorem BookFeed.limit (h : BookFeed e) (side : Side) (o : Order) :
    BookFeed (LimitTree.limit side e o) :=
  h.snoc rfl rfl

/-- `limit_sell` / `limit_buy` send trades and at most one `AddOrder`. -/
theorem BookFeed.limitSide (h : BookFeed e) (hi : Inv e) (side : Side) (account : AccountId)
    (quantity price : Nat) : BookFeed (LimitOrderBook.limitSide side e account quantity price).2 := by
  let o : Order := ⟨e.sequence, side, quantity, price, none, account⟩
  have h₁ : BookFeed { e with orders := e.orders.insert e.sequence o } := h
  have hr := h₁.market side.not o
  rcases limitSide_cases side account quantity price hi.sequence_not_mem with ⟨-, heq⟩ |
    ⟨-, -, heq⟩ | ⟨-, -, heq⟩ <;> rw [heq]
  · exact h₁.limit side o
  · exact hr
  · exact BookFeed.limit (e := { (LimitTree.market side.not _ o).1 with orders := _ }) hr side _

/-- `cancel` sends one `DeleteOrder`. -/
theorem BookFeed.cancel (h : BookFeed e) {uid : Nat} (hr : LimitOrderBook.cancel e uid = .ok e') :
    BookFeed e' := by
  unfold LimitOrderBook.cancel at hr
  split at hr <;> cases hr
  exact h.snoc rfl rfl

/-- **No call the server makes into the book sends a session message.** -/
theorem BookFeed.apply (h : BookFeed e) (hi : Inv e) {r : Request} (hr : r.Reported)
    (ha : r.apply e = .ok e') : BookFeed e' := by
  cases r with
  | limit account side quantity price =>
    cases ha; rw [LimitOrderBook.limit_eq_limitSide]; exact h.limitSide hi side account quantity price
  | market account side quantity =>
    cases ha; rw [LimitOrderBook.market_eq_marketSide]; exact h.market side.not _
  | cancel uid => exact h.cancel ha
  | reduce | clear => exact hr.elim

theorem Reachable.bookFeed {e₀ : Engine} (h : Reachable Request.Reported e₀ e) (hi : Inv e₀)
    (hf : BookFeed e₀) : BookFeed e := by
  induction h with
  | start => exact hf
  | step r hr hreach ha ih => exact ih.apply (hreach.inv hi) hr ha

end BookFeed

end OrderEntry.LOB

/-! ## §2 The receiver's session flag -/

namespace DataFeed.Receiver

theorem isSessionActive_map_withBook {r r' : Receiver} {x : Except BookError LOB.LimitOrderBook}
    (h : r.withBook <$> x = .ok r') : r'.isSessionActive = r.isSessionActive := by
  cases x <;> cases h; rfl

/-- A book message leaves the receiver's session flag alone. -/
theorem isSessionActive_handle {r r' : Receiver} {m : Message} (hm : m.isSession = false)
    (h : r.handle m = .ok r') : r'.isSessionActive = r.isSessionActive := by
  cases m with
  | startOfSession | endOfSession => cases hm
  | clear | addOrder => cases h; rfl
  | deleteOrder | trade =>
    simp only [handle] at h
    split at h
    · exact isSessionActive_map_withBook h
    · cases h; rfl

end DataFeed.Receiver

/-- A replay of no packets ends where it starts. -/
theorem DataFeed.Replays.eq_of_nil {r r' : Receiver} (h : Replays [] r r') : r' = r := by
  cases h; rfl

/-- A replay of `m :: ms` handles `m`, then replays `ms`. -/
theorem DataFeed.Replays.cons_inv {m : Message} {ms : List Message} {r r' : Receiver}
    (h : Replays (m :: ms) r r') :
    ∃ r₁, DataFeed.Admissible r.book m ∧ r.handle m = .ok r₁ ∧ Replays ms r₁ r' := by
  cases h with
  | cons ha hr hrest => exact ⟨_, ha, hr, hrest⟩

/-- Replaying book messages leaves the session flag alone. -/
theorem DataFeed.Replays.isSessionActive {ms : List Message} {r r' : Receiver} (h : Replays ms r r')
    (hms : ∀ m ∈ ms, m.isSession = false) : r'.isSessionActive = r.isSessionActive := by
  induction h with
  | nil => rfl
  | cons _ hr _ ih =>
    rw [ih fun m hm => hms m (List.mem_cons_of_mem _ hm),
      Receiver.isSessionActive_handle (hms _ (List.mem_cons_self _ _)) hr]

/-! ## §3 The command line -/

namespace OrderEntry

/-- The state of a `Handlers::ServerCLI`. -/
structure ServerCLI where
  /-- `is_session_active` -/
  isSessionActive : Bool
  deriving DecidableEq, Repr

namespace ServerCLI

/-- A command line as `ServerCLI(server, feed)` makes it: no session. -/
def new : ServerCLI := ⟨false⟩

/-- `start_of_session(line)`: refuse an active session, otherwise send `StartOfSession` and mark
the session active. The command line after it and what it hands the feed. -/
def startOfSession (cli : ServerCLI) : ServerCLI × List Message :=
  if cli.isSessionActive then (cli, []) else (⟨true⟩, [.startOfSession])

/-- `end_of_session(line)`: refuse an inactive session, otherwise send `EndOfSession` and mark the
session inactive. -/
def endOfSession (cli : ServerCLI) : ServerCLI × List Message :=
  if !cli.isSessionActive then (cli, []) else (⟨false⟩, [.endOfSession])

/-- `parse(line)`: `start`, `end`, or an invalid command. -/
def parse (cli : ServerCLI) (line : String) : ServerCLI × List Message :=
  if line = "start\n" then cli.startOfSession
  else if line = "end\n" then cli.endOfSession
  else (cli, [])

/-- **What a line does**: nothing; or, with no session active, start one and send
`StartOfSession`; or, with one active, end it and send `EndOfSession`. -/
theorem parse_cases (cli : ServerCLI) (line : String) :
    cli.parse line = (cli, []) ∨
      (cli.isSessionActive = false ∧ cli.parse line = (⟨true⟩, [.startOfSession])) ∨
      (cli.isSessionActive = true ∧ cli.parse line = (⟨false⟩, [.endOfSession])) := by
  unfold parse startOfSession endOfSession
  cases h : cli.isSessionActive <;> split_ifs <;> simp_all

end ServerCLI

/-! ## §4 The venue -/

/-- The venue of `venue/server.cpp`: the server, its command line, and every message handed to
the feed's sender, in order. -/
structure Venue where
  /-- the order-entry `Server` -/
  server : Server
  /-- the `ServerCLI` -/
  cli : ServerCLI
  /-- the messages `DataFeed::Sender::send` was handed, in order -/
  sent : List Message

namespace Venue

/-- What can happen at the venue. -/
inductive Event where
  /-- an event on the order-entry port -/
  | server (ev : Server.Event)
  /-- a line read from the console -/
  | command (line : String)
  deriving DecidableEq, Repr

/-- `main`: the server with its configured users, a command line with no session, and a sender
that has sent nothing. -/
def init (users : List (String × String)) : Except String Venue := do
  let s ← Server.init users
  pure ⟨s, ServerCLI.new, []⟩

/-- One event. The book's messages reach the sender as the book sends them, and the command
line's after them. -/
def step (v : Venue) : Event → Except LOB.BookError Venue
  | .server ev => do
    let s ← v.server.step ev
    pure ⟨s, v.cli, v.sent ++ s.book.feed.drop v.server.book.feed.length⟩
  | .command line => .ok ⟨v.server, (v.cli.parse line).1, v.sent ++ (v.cli.parse line).2⟩

/-- Events one after another, stopping at the first that throws. -/
def run (v : Venue) (events : List Event) : Except LOB.BookError Venue := events.foldlM step v

/-- The venues reachable from `v₀` by events that return normally. -/
inductive Reachable (v₀ : Venue) : Venue → Prop where
  | start : Reachable v₀ v₀
  | step {v v' : Venue} (ev : Event) : Reachable v₀ v → v.step ev = .ok v' → Reachable v₀ v'

theorem Reachable.server {v₀ v : Venue} (h : Reachable v₀ v) : Server.Reachable v₀.server v.server := by
  induction h with
  | start => exact .start
  | step ev _ hs ih =>
    cases ev with
    | server ev =>
      obtain ⟨s, hs', h⟩ := Server.bind_eq_ok.mp hs
      cases h; exact .step ev ih hs'
    | command line => cases hs; exact ih

end Venue

/-! ## §5 The feed of a running venue -/

/-- The first `n` session messages of a feed whose sessions alternate, starting with
`StartOfSession`. -/
def sessionMessages : Nat → List Message
  | 0 => []
  | n + 1 => sessionMessages n ++ [if n % 2 = 0 then .startOfSession else .endOfSession]

namespace Venue

variable {users : List (String × String)} {v₀ v : Venue}

/-- The book of every reachable venue keeps the book's invariants. -/
theorem Reachable.bookInv (h₀ : init users = .ok v₀) (h : Reachable v₀ v) : Server.BookInv v.server := by
  obtain ⟨s₀, hs₀, hv₀⟩ := Server.bind_eq_ok.mp h₀
  cases hv₀
  exact h.server.bookInv hs₀

/-- A receiver `r` that replays the feed of `v` from the start and holds the venue's book and
session flag, with `n` session messages on the feed, alternating from `StartOfSession`. -/
structure Mirrored (v : Venue) (r : Receiver) (n : Nat) : Prop where
  replays : Replays v.sent Receiver.init r
  flag : r.isSessionActive = v.cli.isSessionActive
  book : LOB.Mirrors [] v.server.book r.book
  sessions : v.sent.filter Message.isSession = sessionMessages n
  parity : v.cli.isSessionActive = true ↔ n % 2 = 1

/-- A line on the console sends nothing, or the next session message, which flips the flag of
the command line and of the receiver alike. -/
theorem Mirrored.command {r : Receiver} {n : Nat} (h : Mirrored v r n) (line : String) :
    ∃ r' n', Mirrored ⟨v.server, (v.cli.parse line).1, v.sent ++ (v.cli.parse line).2⟩ r' n' := by
  have hp := h.parity
  rcases ServerCLI.parse_cases v.cli line with hl | ⟨hoff, hl⟩ | ⟨hon, hl⟩ <;> rw [hl]
  · exact ⟨r, n, by simpa using h.replays, h.flag, h.book, by simpa using h.sessions, hp⟩
  · have hn : n % 2 = 0 := by rw [hoff] at hp; simp at hp; omega
    refine ⟨{ r with isSessionActive := true }, n + 1, h.replays.append (.single trivial rfl), rfl,
      h.book, ?_, by simp; omega⟩
    simp [List.filter_append, h.sessions, sessionMessages, hn, Message.isSession]
  · have hn : n % 2 = 1 := by rw [hon] at hp; simpa using hp
    refine ⟨{ r with isSessionActive := false }, n + 1, h.replays.append (.single trivial rfl), rfl,
      h.book, ?_, by simp; omega⟩
    simp [List.filter_append, h.sessions, sessionMessages, hn, Message.isSession]

/-- An event on the order-entry port sends the book's messages, none a session message; the
receiver replays them to the new book and keeps its flag. -/
theorem Mirrored.server {s₀ : Server} (hs₀ : Server.init users = .ok s₀) {r : Receiver} {n : Nat}
    (h : Mirrored v r n) (hsr : Server.Reachable s₀ v.server) {ev : Server.Event} {s' : Server}
    (hs' : v.server.step ev = .ok s') :
    ∃ r', Mirrored ⟨s', v.cli, v.sent ++ s'.book.feed.drop v.server.book.feed.length⟩ r' n := by
  obtain ⟨ms, r', hfeed, hr', hm'⟩ :=
    (((Server.step_reported hs').mono fun _ hc => hc.1).follows (hsr.bookInv hs₀).1).2 r h.book
  have hbf : LOB.BookFeed _ := (hsr.step ev hs').reported.bookFeed
    (by rw [(Server.init_spec hs₀).2.2]; exact LOB.Inv.init _)
    (by rw [(Server.init_spec hs₀).2.2]; intro m hm; cases hm)
  have hms : ∀ m ∈ ms, m.isSession = false := fun m hm =>
    hbf m (hfeed ▸ List.mem_append_right _ hm)
  have hdrop : s'.book.feed.drop v.server.book.feed.length = ms := by rw [hfeed, List.drop_left]
  refine ⟨r', by rw [hdrop]; exact h.replays.append hr', (hr'.isSessionActive hms).trans h.flag,
    hm', ?_, h.parity⟩
  rw [hdrop, List.filter_append, h.sessions,
    List.filter_eq_nil_iff.mpr fun m hm => by simp [hms m hm], List.append_nil]

/-- **The run lemma.** On every venue reachable from its start, a receiver replays the feed from
the start, holds the server's book and the command line's session flag, and the feed's session
messages alternate. -/
theorem Reachable.mirrored (h₀ : init users = .ok v₀) (h : Reachable v₀ v) :
    ∃ r, Replays v.sent Receiver.init r ∧ r.isSessionActive = v.cli.isSessionActive ∧
      LOB.Mirrors [] v.server.book r.book ∧
      ∃ n, v.sent.filter Message.isSession = sessionMessages n ∧
        (v.cli.isSessionActive = true ↔ n % 2 = 1) := by
  obtain ⟨s₀, hs₀, hv₀⟩ := Server.bind_eq_ok.mp h₀
  cases hv₀
  suffices ∃ r n, Mirrored v r n by
    obtain ⟨r, n, hm⟩ := this
    exact ⟨r, hm.replays, hm.flag, hm.book, n, hm.sessions, hm.parity⟩
  induction h with
  | start =>
    refine ⟨_, 0, .nil _, rfl, ?_, rfl, by simp [ServerCLI.new]⟩
    rw [(Server.init_spec hs₀).2.2]
    exact LOB.Mirrors.init _
  | step ev hreach hs ih =>
    obtain ⟨r, n, hm⟩ := ih
    cases ev with
    | server ev =>
      obtain ⟨s', hs', h'⟩ := Server.bind_eq_ok.mp hs
      cases h'
      obtain ⟨r', hm'⟩ := hm.server hs₀ hreach.server hs'
      exact ⟨r', n, hm'⟩
    | command line =>
      cases hs
      exact hm.command line

end Venue

/-- **The venue's feed is mirrored, sessions included.** On every venue reachable from its start,
by any interleaving of order-entry events on any connections and lines on the console, a
receiver that replays the feed from the start takes every packet as meant and ends holding the
server's book, its trees and its orders without their accounts, with the command line's session
flag. The session messages on the feed are `StartOfSession`, `EndOfSession`, `StartOfSession`, …
in turn, and the session is active exactly when an odd number of them were sent. -/
theorem venue_feed_mirrored {users : List (String × String)} {v₀ v : Venue}
    (h₀ : Venue.init users = .ok v₀) (h : Venue.Reachable v₀ v) :
    ∃ r, Receiver.init.run v.sent = .ok r ∧ Replays v.sent Receiver.init r ∧
      r.isSessionActive = v.cli.isSessionActive ∧ LOB.Mirrors [] v.server.book r.book ∧
      ∃ n, v.sent.filter Message.isSession = sessionMessages n ∧
        (v.cli.isSessionActive = true ↔ n % 2 = 1) := by
  obtain ⟨r, hr, hrest⟩ := h.mirrored h₀
  exact ⟨r, hr.run_eq, hr, hrest⟩

theorem venue_feed_after_session :
    ∃ v₀ v, Venue.init [("AAAA", "password1234")] = .ok v₀ ∧
      v₀.run [.command "start\n", .server (.frame 0 (.loginRequest "AAAA" "password1234")),
        .server (.frame 0 (.orderRequest 100 10 'S')), .command "end\n"] = .ok v ∧
      Venue.Reachable v₀ v ∧ v.sent.filter Message.isSession = [.startOfSession, .endOfSession] ∧
      ∃ r, Receiver.init.run v.sent = .ok r ∧ Replays v.sent Receiver.init r ∧
        r.isSessionActive = v.cli.isSessionActive ∧ LOB.Mirrors [] v.server.book r.book ∧
        ∃ n, v.sent.filter Message.isSession = sessionMessages n ∧
          (v.cli.isSessionActive = true ↔ n % 2 = 1) := by
  refine ⟨_, _, rfl, rfl, ?h, by decide, @venue_feed_mirrored [("AAAA", "password1234")] _ _ rfl ?h⟩
  exact .step (.command "end\n") (.step (.server (.frame 0 (.orderRequest 100 10 'S')))
    (.step (.server (.frame 0 (.loginRequest "AAAA" "password1234"))) (.step (.command "start\n") .start rfl)
      rfl) rfl) rfl

end OrderEntry

end CboeEmulator

import CboeEmulator.OrderEntry.Packets

/-!
# The Client's Command Line

`Handlers::ClientCLI` of `order_entry/handlers/client_cli.hpp` turns each line `CLI` reads from
the console into one request of `venue/client.cpp`'s `Client`. `parse(line)` tries eight regular
expressions in turn with `std::regex_match`. The handler of the first that matches takes the
groups again with `std::regex_search`, reads each number with `std::istringstream(...) >> v`,
the side with `bool_to_side(match.str(1).compare("sell"))` and the credentials with
`make_username` and `make_password`, and calls `client.send<T>(...)`.

What the command line sends is what the server reads: every request it sends fits the packet
`Client::send` builds, so the server's `read_buffer` casts the packet back to it. Conversely, the
line a user types for a request, with the numbers in decimal, sends that request. A number too
large for its field is sent as the field's maximum.

## Main definitions

- `CLIAtom`, `matchAtoms`: the regular expressions, as literal texts, groups of a starred
  character class and groups of two alternative texts, and what `std::regex_match` and
  `std::regex_search` find in a line;
- `Matches`: the ways a line matches a pattern, as a regular expression means them;
- `readUnsigned`: `std::istringstream(digits) >> v` into a `w`-bit unsigned `v`;
- `ClientCommand`, `ClientCLI.parse` and its handlers;
- `Messages.Request.commandLine`: the line a user types for a request.

## Main results

- `client_cli_patterns_unambiguous`: a line matches each of the eight patterns in at most one
  way, the one `matchAtoms` finds;
- `ClientCLI.parse_fits`: every request the command line sends fits its packet;
- `client_cli_sends_decodable`: the server reads back every request the command line sends;
- `client_cli_round_trip`: the line of a request parses back to sending it.

## Representation

- A line is the list of its characters, with the newline `CLI::read_command_line` keeps.
- `matchAtoms` takes each starred class as far as it goes and tries the alternatives in turn.
  On the eight patterns this is what `std::regex_match` means (`client_cli_patterns_unambiguous`):
  every group is followed by a literal text whose first character is outside the class, and
  `buy` and `sell` differ in their first character.
- `>>` on an empty field fails in the stream's `sentry` before any conversion, and the local
  variable is sent uninitialized: the command is `sendIndeterminate`. On a number too large for
  the type `num_get` stores the type's maximum.
- `make_username` and `make_password` throw a `std::string`, which `main`'s
  `catch (std::exception& e)` does not catch: `parse` returns the thrown text as an error.
- `print_account` only prints.
-/

namespace CboeEmulator.OrderEntry

open Messages

/-! ## §1 The regular expressions -/

/-- An atom of the command line's regular expressions. -/
inductive CLIAtom where
  /-- a literal text -/
  | lit (s : List Char)
  /-- a group `([class]*)` -/
  | star (c : Char → Bool)
  /-- a group `(a|b)` of two literal texts -/
  | alt (a b : List Char)

/-- `std::regex_match(line, pattern)` for a pattern of atoms, with the groups that
`std::regex_search` then reads: `none` if the pattern does not match the whole line. -/
def matchAtoms : List CLIAtom → List Char → Option (List (List Char))
  | [], [] => some []
  | [], _ :: _ => none
  | .lit s :: as, cs => if s.isPrefixOf cs then matchAtoms as (cs.drop s.length) else none
  | .star c :: as, cs => (matchAtoms as (cs.dropWhile c)).map (cs.takeWhile c :: ·)
  | .alt a b :: as, cs =>
    if a.isPrefixOf cs then (matchAtoms as (cs.drop a.length)).map (a :: ·)
    else if b.isPrefixOf cs then (matchAtoms as (cs.drop b.length)).map (b :: ·)
    else none

section Atoms

variable {as : List CLIAtom} {cs rest g : List Char} {gs : List (List Char)}

theorem matchAtoms_lit_append (s : List Char) :
    matchAtoms (.lit s :: as) (s ++ cs) = matchAtoms as cs := by
  simp [matchAtoms, List.isPrefixOf_iff_prefix.mpr (List.prefix_append s cs)]

/-- A group of a class takes the characters of the class up to the first one outside it. -/
theorem matchAtoms_star_append {c : Char → Bool} (hg : ∀ x ∈ g, c x = true)
    (hr : ∀ x ∈ rest.head?, c x = false) :
    matchAtoms (.star c :: as) (g ++ rest) = (matchAtoms as rest).map (g :: ·) := by
  have hstop : rest.takeWhile c = [] ∧ rest.dropWhile c = rest := by
    cases rest with
    | nil => exact ⟨rfl, rfl⟩
    | cons x xs => simp [List.takeWhile, List.dropWhile, hr x rfl]
  simp only [matchAtoms, List.takeWhile_append_of_pos hg, List.dropWhile_append_of_pos hg, hstop,
    List.append_nil]

theorem matchAtoms_alt_left (a b : List Char) :
    matchAtoms (.alt a b :: as) (a ++ cs) = (matchAtoms as cs).map (a :: ·) := by
  simp [matchAtoms, List.isPrefixOf_iff_prefix.mpr (List.prefix_append a cs)]

theorem matchAtoms_alt_right {a b : List Char} (h : a.isPrefixOf (b ++ cs) = false) :
    matchAtoms (.alt a b :: as) (b ++ cs) = (matchAtoms as cs).map (b :: ·) := by
  simp [matchAtoms, h, List.isPrefixOf_iff_prefix.mpr (List.prefix_append b cs)]

theorem matchAtoms_lit_inv {s : List Char} (h : matchAtoms (.lit s :: as) cs = some gs) :
    matchAtoms as (cs.drop s.length) = some gs := by
  simp only [matchAtoms] at h
  split_ifs at h
  exact h

/-- A group of a class holds characters of the class only. -/
theorem matchAtoms_star_inv {c : Char → Bool} (h : matchAtoms (.star c :: as) cs = some gs) :
    ∃ gs', gs = cs.takeWhile c :: gs' ∧ (∀ x ∈ cs.takeWhile c, c x = true) ∧
      matchAtoms as (cs.dropWhile c) = some gs' := by
  simp only [matchAtoms, Option.map_eq_some'] at h
  obtain ⟨gs', h, rfl⟩ := h
  exact ⟨gs', rfl, fun x hx => List.mem_takeWhile_imp hx, h⟩

end Atoms

/-! ## §2 The matches of a pattern

What `std::regex_match` asks for: a way to cut the whole line into the atoms' texts. On a pattern
whose every group of a class is followed by a literal text that starts outside the class, and
whose alternatives disagree at some character, there is at most one way, and `matchAtoms` finds
it. All eight patterns of the command line are of this kind. -/

/-- `Matches as cs gs`: the line `cs` is the texts of the atoms `as` one after another, with the
groups `gs`. -/
inductive Matches : List CLIAtom → List Char → List (List Char) → Prop
  | nil : Matches [] [] []
  | lit {s : List Char} {as rest gs} : Matches as rest gs → Matches (.lit s :: as) (s ++ rest) gs
  | star {c : Char → Bool} {as g rest gs} : (∀ x ∈ g, c x = true) → Matches as rest gs →
      Matches (.star c :: as) (g ++ rest) (g :: gs)
  | altLeft {a b : List Char} {as rest gs} : Matches as rest gs →
      Matches (.alt a b :: as) (a ++ rest) (a :: gs)
  | altRight {a b : List Char} {as rest gs} : Matches as rest gs →
      Matches (.alt a b :: as) (b ++ rest) (b :: gs)

/-- A pattern whose every group of a class is followed by a literal text starting outside the
class, and whose alternatives are not prefixes of one another. -/
def separated : List CLIAtom → Bool
  | [] => true
  | .lit _ :: as => separated as
  | .star c :: as =>
    match as with
    | .lit (x :: _) :: _ => !c x && separated as
    | _ => false
  | .alt a b :: as => !a.isPrefixOf b && !b.isPrefixOf a && separated as

/-- What `matchAtoms` finds is a match. -/
theorem matches_of_matchAtoms :
    ∀ {as : List CLIAtom} {cs : List Char} {gs : List (List Char)},
      matchAtoms as cs = some gs → Matches as cs gs
  | [], [], _, h => by cases h; exact .nil
  | [], _ :: _, _, h => by cases h
  | .lit s :: as, cs, gs, h => by
    have hs : s.isPrefixOf cs = true := by by_contra hs; simp [matchAtoms, hs] at h
    rw [← List.prefix_iff_eq_append.mp (List.isPrefixOf_iff_prefix.mp hs)]
    exact .lit (matches_of_matchAtoms (matchAtoms_lit_inv h))
  | .star c :: as, cs, gs, h => by
    obtain ⟨gs', rfl, hg, h⟩ := matchAtoms_star_inv h
    have hm := Matches.star hg (matches_of_matchAtoms h)
    rwa [List.takeWhile_append_dropWhile] at hm
  | .alt a b :: as, cs, gs, h => by
    simp only [matchAtoms] at h
    split_ifs at h with ha hb <;> simp only [Option.map_eq_some'] at h
    · obtain ⟨gs', h, rfl⟩ := h
      rw [← List.prefix_iff_eq_append.mp (List.isPrefixOf_iff_prefix.mp ha)]
      exact .altLeft (matches_of_matchAtoms h)
    · obtain ⟨gs', h, rfl⟩ := h
      rw [← List.prefix_iff_eq_append.mp (List.isPrefixOf_iff_prefix.mp hb)]
      exact .altRight (matches_of_matchAtoms h)

/-- A group of a class in a separated pattern is followed by a literal starting outside it. -/
theorem separated_star {c : Char → Bool} {as : List CLIAtom}
    (h : separated (.star c :: as) = true) :
    ∃ x s as', as = .lit (x :: s) :: as' ∧ c x = false ∧ separated as = true := by
  match as, h with
  | .lit (x :: s) :: as', h =>
    simp only [separated, Bool.and_eq_true, Bool.not_eq_true'] at h
    exact ⟨x, s, as', rfl, h.1, h.2⟩
  | [], h | .lit [] :: _, h | .star _ :: _, h | .alt .. :: _, h => simp [separated] at h

/-- Two texts that are not prefixes of one another: the one is no prefix of the other followed
by anything. -/
theorem isPrefixOf_append_eq_false {a b rest : List Char} (hab : a.isPrefixOf b = false)
    (hba : b.isPrefixOf a = false) : a.isPrefixOf (b ++ rest) = false := by
  by_contra h
  rw [Bool.not_eq_false, List.isPrefixOf_iff_prefix] at h
  rcases List.prefix_or_prefix_of_prefix h (List.prefix_append b rest) with h' | h' <;>
    simp [← List.isPrefixOf_iff_prefix, *] at h'

/-- On a separated pattern every match is the one `matchAtoms` finds. -/
theorem matchAtoms_of_matches {as : List CLIAtom} {cs : List Char} {gs : List (List Char)}
    (hm : Matches as cs gs) (hs : separated as = true) : matchAtoms as cs = some gs := by
  induction hm with
  | nil => rfl
  | lit _ ih => rw [matchAtoms_lit_append, ih hs]
  | star hg hm ih =>
    obtain ⟨x, s, as', rfl, hx, hs'⟩ := separated_star hs
    cases hm with
    | lit hm' =>
      rw [matchAtoms_star_append hg (by simpa using hx), ih hs']
      rfl
  | altLeft _ ih =>
    simp only [separated, Bool.and_eq_true] at hs
    rw [matchAtoms_alt_left, ih hs.2]
    rfl
  | altRight _ ih =>
    simp only [separated, Bool.and_eq_true, Bool.not_eq_true'] at hs
    rw [matchAtoms_alt_right (isPrefixOf_append_eq_false hs.1.1 hs.1.2), ih hs.2]
    rfl

namespace ClientCLI

/-- The word `buy` of `(buy|sell)`. -/
def buy : List Char := "buy".toList

/-- The word `sell` of `(buy|sell)`. -/
def sell : List Char := "sell".toList

/-- `LOGIN`: `^login ([a-zA-Z0-9]*) ([a-zA-Z0-9]*)\n$`. -/
def loginRegex : List CLIAtom :=
  [.lit "login ".toList, .star Char.isAlphanum, .lit [' '], .star Char.isAlphanum, .lit ['\n']]

/-- `LOGOUT`: `^logout\n$`. -/
def logoutRegex : List CLIAtom := [.lit "logout\n".toList]

/-- `MARKET`: `^market (buy|sell) ([0-9]*)\n$`. -/
def marketRegex : List CLIAtom :=
  [.lit "market ".toList, .alt buy sell, .lit [' '], .star Char.isDigit, .lit ['\n']]

/-- `LIMIT`: `^limit (buy|sell) ([0-9]*) ([0-9]*)\n$`. -/
def limitRegex : List CLIAtom :=
  [.lit "limit ".toList, .alt buy sell, .lit [' '], .star Char.isDigit, .lit [' '],
    .star Char.isDigit, .lit ['\n']]

/-- `CANCEL`: `^cancel ([0-9]*)\n$`. -/
def cancelRegex : List CLIAtom := [.lit "cancel ".toList, .star Char.isDigit, .lit ['\n']]

/-- `REPLACE`: `^replace ([0-9]*) (buy|sell) ([0-9]*) ([0-9]*)\n$`. -/
def replaceRegex : List CLIAtom :=
  [.lit "replace ".toList, .star Char.isDigit, .lit [' '], .alt buy sell, .lit [' '],
    .star Char.isDigit, .lit [' '], .star Char.isDigit, .lit ['\n']]

/-- `PURGE`: `^purge\n$`. -/
def purgeRegex : List CLIAtom := [.lit "purge\n".toList]

/-- `ACCOUNT`: `^account\n$`. -/
def accountRegex : List CLIAtom := [.lit "account\n".toList]

/-- The eight patterns `parse` tries, in order. -/
def regexes : List (List CLIAtom) :=
  [loginRegex, logoutRegex, marketRegex, limitRegex, cancelRegex, replaceRegex, purgeRegex,
    accountRegex]

end ClientCLI

/-- **The command line's patterns are unambiguous.** A line matches each of the eight regular
expressions of `ClientCLI` in at most one way, and the groups `parse` reads are those of that
match: a match of a pattern is exactly what `matchAtoms` returns. -/
theorem client_cli_patterns_unambiguous :
    ∀ p ∈ ClientCLI.regexes, ∀ (cs : List Char) (gs : List (List Char)),
      Matches p cs gs ↔ matchAtoms p cs = some gs := by
  intro p hp cs gs
  have hs : separated p = true := by
    simp only [ClientCLI.regexes, List.mem_cons, List.mem_singleton, List.not_mem_nil,
      or_false] at hp
    rcases hp with rfl | rfl | rfl | rfl | rfl | rfl | rfl | rfl <;> rfl
  exact ⟨fun h => matchAtoms_of_matches h hs, matches_of_matchAtoms⟩

theorem client_cli_login_line_matches :
    ClientCLI.loginRegex ∈ ClientCLI.regexes ∧
      Matches ClientCLI.loginRegex "login AAAA password1234\n".toList
        ["AAAA".toList, "password1234".toList] :=
  ⟨List.mem_cons_self _ _,
    (client_cli_patterns_unambiguous _ (List.mem_cons_self _ _) _ _).mpr rfl⟩

/-! ## §3 Fields and handlers -/

/-- `std::istringstream(digits) >> v` for a `w`-bit unsigned `v`, on the digits of a group
`([0-9]*)`. With no digit the stream's `sentry` fails and `v` is left unset (`none`); otherwise
the decimal value, or the type's maximum when the value does not fit. -/
def readUnsigned (w : Nat) (digits : List Char) : Option Nat :=
  if digits = [] then none
  else some (min (Nat.ofDigits 10 (digits.reverse.map fun c => c.toNat - '0'.toNat)) (2 ^ w - 1))

/-- What `ClientCLI::parse` does with a line. -/
inductive ClientCommand where
  /-- `client.send<T>(...)` of the request -/
  | send (r : Request)
  /-- `client.send<T>(...)` of a request with a number `>>` left unset -/
  | sendIndeterminate
  /-- `print_account(line)` -/
  | printAccount
  /-- `std::cout << "invalid command"` -/
  | invalid
  deriving DecidableEq, Repr

namespace ClientCLI

/-- `match.str(n)`: the `n`-th group of a match, empty if there is none. -/
def str (m : List (List Char)) (n : Nat) : List Char := m.getD (n - 1) []

@[simp] theorem str_cons_one (g : List Char) (m : List (List Char)) : str (g :: m) 1 = g := rfl

@[simp] theorem str_cons_add_two (g : List Char) (m : List (List Char)) (n : Nat) :
    str (g :: m) (n + 2) = str m (n + 1) := rfl

/-- `bool_to_side(word.compare("sell"))`: `compare` is 0 for `"sell"` only. -/
def sideOf (word : List Char) : Side := boolToSide (word != sell)

/-- `login(line)`: `make_username` and `make_password` of the two groups, which throw on a string
of the wrong length, and a `LoginRequest`. -/
def login (m : List (List Char)) : Except String ClientCommand := do
  let username ← makeUsername (String.mk (str m 1))
  let password ← makePassword (String.mk (str m 2))
  pure (.send (.loginRequest username password))

/-- `market_order(line)`: an `OrderRequest` at `ORDER_PRICE_MARKET`. -/
def marketOrder (m : List (List Char)) : ClientCommand :=
  match readUnsigned 32 (str m 2) with
  | some size => .send (.orderRequest orderPriceMarket size (sideOf (str m 1)))
  | none => .sendIndeterminate

/-- `limit_order(line)`: an `OrderRequest` at the typed price. -/
def limitOrder (m : List (List Char)) : ClientCommand :=
  match readUnsigned 32 (str m 2), readUnsigned 64 (str m 3) with
  | some size, some price => .send (.orderRequest price size (sideOf (str m 1)))
  | _, _ => .sendIndeterminate

/-- `cancel_order(line)`: a `CancelRequest`. -/
def cancelOrder (m : List (List Char)) : ClientCommand :=
  match readUnsigned 64 (str m 1) with
  | some orderId => .send (.cancelRequest orderId)
  | none => .sendIndeterminate

/-- `replace_order(line)`: a `ReplaceRequest`. -/
def replaceOrder (m : List (List Char)) : ClientCommand :=
  match readUnsigned 64 (str m 1), readUnsigned 32 (str m 3), readUnsigned 64 (str m 4) with
  | some orderId, some size, some price =>
    .send (.replaceRequest orderId price size (sideOf (str m 2)))
  | _, _, _ => .sendIndeterminate

/-- `parse(line)`: the first of the eight regular expressions that matches the line decides, and
its handler reads the groups of the match. -/
def parse (line : String) : Except String ClientCommand :=
  if let some m := matchAtoms loginRegex line.toList then login m
  else if (matchAtoms logoutRegex line.toList).isSome then .ok (.send .logoutRequest)
  else if let some m := matchAtoms marketRegex line.toList then .ok (marketOrder m)
  else if let some m := matchAtoms limitRegex line.toList then .ok (limitOrder m)
  else if let some m := matchAtoms cancelRegex line.toList then .ok (cancelOrder m)
  else if let some m := matchAtoms replaceRegex line.toList then .ok (replaceOrder m)
  else if (matchAtoms purgeRegex line.toList).isSome then .ok (.send .purgeRequest)
  else if (matchAtoms accountRegex line.toList).isSome then .ok .printAccount
  else .ok .invalid

end ClientCLI

/-! ## §4 What the command line sends fits its packet -/

/-- A character of `[a-zA-Z0-9]` is ASCII. -/
theorem toNat_lt_of_isAlphanum {c : Char} (h : c.isAlphanum = true) : c.toNat < 256 := by
  simp only [Char.isAlphanum, Char.isAlpha, Char.isUpper, Char.isLower, Char.isDigit,
    Bool.or_eq_true, Bool.and_eq_true, decide_eq_true_eq] at h
  show c.val.toNat < 256
  rcases h with (⟨-, h⟩ | ⟨-, h⟩) | ⟨-, h⟩
  · have : c.val.toNat ≤ 90 := h
    omega
  · have : c.val.toNat ≤ 122 := h
    omega
  · have : c.val.toNat ≤ 57 := h
    omega

/-- A number `>>` reads fits its type. -/
theorem readUnsigned_lt {w : Nat} {digits : List Char} {n : Nat}
    (h : readUnsigned w digits = some n) : n < 2 ^ w := by
  unfold readUnsigned at h
  split_ifs at h
  cases h
  have := Nat.one_le_two_pow (n := w)
  omega

namespace ClientCLI

theorem sideOf_toNat_lt (word : List Char) : (sideOf word).toNat < 256 := by
  unfold sideOf boolToSide
  split <;> decide

/-- The groups of `LOGIN` are alphanumeric. -/
theorem loginRegex_isAlphanum {cs : List Char} {m : List (List Char)}
    (h : matchAtoms loginRegex cs = some m) :
    ∀ c ∈ str m 1 ++ str m 2, c.isAlphanum = true := by
  obtain ⟨_, rfl, hu, h⟩ := matchAtoms_star_inv (matchAtoms_lit_inv h)
  obtain ⟨_, rfl, hp, -⟩ := matchAtoms_star_inv (matchAtoms_lit_inv h)
  intro c hc
  rcases List.mem_append.mp hc with hc | hc
  exacts [hu c hc, hp c hc]

theorem login_fits {m : List (List Char)} {r : Request} (h : login m = .ok (.send r))
    (hc : ∀ c ∈ str m 1 ++ str m 2, c.isAlphanum = true) : r.Fits := by
  unfold login at h
  obtain ⟨v, hv, h⟩ := Server.bind_eq_ok.mp h
  obtain ⟨w, hw, h⟩ := Server.bind_eq_ok.mp h
  cases h
  obtain ⟨rfl, hvl⟩ := eq_of_makeArray hv
  obtain ⟨rfl, hwl⟩ := eq_of_makeArray hw
  exact ⟨hvl, hwl, fun c hc' => toNat_lt_of_isAlphanum (hc c hc')⟩

theorem marketOrder_fits {m : List (List Char)} {r : Request} (h : marketOrder m = .send r) :
    r.Fits := by
  unfold marketOrder at h
  split at h <;> cases h
  exact ⟨by decide, readUnsigned_lt ‹_›, sideOf_toNat_lt _⟩

theorem limitOrder_fits {m : List (List Char)} {r : Request} (h : limitOrder m = .send r) :
    r.Fits := by
  unfold limitOrder at h
  split at h <;> cases h
  exact ⟨readUnsigned_lt ‹_›, readUnsigned_lt ‹_›, sideOf_toNat_lt _⟩

theorem cancelOrder_fits {m : List (List Char)} {r : Request} (h : cancelOrder m = .send r) :
    r.Fits := by
  unfold cancelOrder at h
  split at h <;> cases h
  exact readUnsigned_lt ‹_›

theorem replaceOrder_fits {m : List (List Char)} {r : Request} (h : replaceOrder m = .send r) :
    r.Fits := by
  unfold replaceOrder at h
  split at h <;> cases h
  exact ⟨readUnsigned_lt ‹_›, readUnsigned_lt ‹_›, readUnsigned_lt ‹_›, sideOf_toNat_lt _⟩

/-- **Every request the command line sends fits its packet.** -/
theorem parse_fits {line : String} {r : Request} (h : parse line = .ok (.send r)) : r.Fits := by
  unfold parse at h
  split at h
  · exact login_fits h (loginRegex_isAlphanum ‹_›)
  split at h
  · cases h; trivial
  split at h
  · exact marketOrder_fits (Except.ok.inj h)
  split at h
  · exact limitOrder_fits (Except.ok.inj h)
  split at h
  · exact cancelOrder_fits (Except.ok.inj h)
  split at h
  · exact replaceOrder_fits (Except.ok.inj h)
  split at h
  · cases h; trivial
  split at h <;> cases h

end ClientCLI

/-- **What the command line sends, the server reads.** For every line of the console that
`ClientCLI::parse` turns into a request, the packet `Client::send` builds is one the server's
`read_buffer` casts back to that request. -/
theorem client_cli_sends_decodable {line : String} {r : Request}
    (h : ClientCLI.parse line = .ok (.send r)) (sequence : Nat) :
    ∃ p, r.encode sequence = some p ∧ p.request = r :=
  request_encode (ClientCLI.parse_fits h) sequence

theorem client_cli_limit_order_read :
    ClientCLI.parse "limit buy 10 100\n" = .ok (.send (.orderRequest 100 10 'B')) ∧
      ∃ p, (Request.orderRequest 100 10 'B').encode 0 = some p ∧
        p.request = .orderRequest 100 10 'B' :=
  ⟨rfl, @client_cli_sends_decodable "limit buy 10 100\n" _ rfl 0⟩

/-! ## §5 The line of a request -/

namespace Messages

/-- The decimal digits of `n`, most significant first, as a user types them. -/
def decimal (n : Nat) : List Char :=
  if n = 0 then ['0'] else (Nat.digits 10 n).reverse.map fun d => Char.ofNat ('0'.toNat + d)

/-- The word a user types for a side. -/
def sideWord (side : Side) : List Char := if side = 'B' then ClientCLI.buy else ClientCLI.sell

namespace Request

/-- The line a user types at the console for a request. -/
def commandLine : Request → List Char
  | .loginRequest username password =>
    "login ".toList ++ (username.toList ++ ([' '] ++ (password.toList ++ ['\n'])))
  | .logoutRequest => "logout\n".toList
  | .orderRequest price quantity side =>
    if price = orderPriceMarket then
      "market ".toList ++ (sideWord side ++ ([' '] ++ (decimal quantity ++ ['\n'])))
    else
      "limit ".toList ++
        (sideWord side ++ ([' '] ++ (decimal quantity ++ ([' '] ++ (decimal price ++ ['\n'])))))
  | .cancelRequest orderId => "cancel ".toList ++ (decimal orderId ++ ['\n'])
  | .replaceRequest orderId price quantity side =>
    "replace ".toList ++ (decimal orderId ++ ([' '] ++ (sideWord side ++ ([' '] ++
      (decimal quantity ++ ([' '] ++ (decimal price ++ ['\n'])))))))
  | .purgeRequest => "purge\n".toList
  | .header => []

/-- The requests a user can type: alphanumeric credentials of 4 and 12 characters, a side of
`'B'` or `'S'`, and numbers that fit their fields. -/
def Typable : Request → Prop
  | .loginRequest username password =>
    (username.toList ++ password.toList).all Char.isAlphanum ∧ username.length = 4 ∧
      password.length = 12
  | .orderRequest price quantity side =>
    (side = 'B' ∨ side = 'S') ∧ quantity < 2 ^ 32 ∧ price < 2 ^ 64
  | .cancelRequest orderId => orderId < 2 ^ 64
  | .replaceRequest orderId price quantity side =>
    (side = 'B' ∨ side = 'S') ∧ orderId < 2 ^ 64 ∧ quantity < 2 ^ 32 ∧ price < 2 ^ 64
  | .logoutRequest | .purgeRequest => True
  | .header => False

instance : DecidablePred Typable
  | .loginRequest .. | .orderRequest .. => inferInstanceAs (Decidable (_ ∧ _ ∧ _))
  | .replaceRequest .. => inferInstanceAs (Decidable (_ ∧ _ ∧ _ ∧ _))
  | .cancelRequest _ => inferInstanceAs (Decidable (_ < _))
  | .logoutRequest | .purgeRequest => inferInstanceAs (Decidable True)
  | .header => inferInstanceAs (Decidable False)

end Request

theorem decimal_isDigit (n : Nat) : ∀ c ∈ decimal n, c.isDigit = true := by
  have hd : ∀ d < 10, (Char.ofNat ('0'.toNat + d)).isDigit = true := by decide
  unfold decimal
  split_ifs
  · decide
  · simp only [List.mem_map, List.mem_reverse]
    rintro _ ⟨d, hd', rfl⟩
    exact hd d (Nat.digits_lt_base (by norm_num) hd')

/-- Reading back the decimal digits of `n` gives `n`. -/
theorem ofDigits_decimal (n : Nat) :
    Nat.ofDigits 10 ((decimal n).reverse.map fun c => c.toNat - '0'.toNat) = n := by
  have hd : ∀ d < 10, (Char.ofNat ('0'.toNat + d)).toNat - '0'.toNat = d := by decide
  unfold decimal
  split_ifs with h
  · simp [h]
  · simp only [List.map_reverse, List.reverse_reverse, List.map_map]
    conv_rhs => rw [← Nat.ofDigits_digits 10 n]
    congr 1
    exact (List.map_congr_left fun d hd' => hd d (Nat.digits_lt_base (by norm_num) hd')).trans
      (List.map_id' _)

theorem readUnsigned_decimal (w n : Nat) :
    readUnsigned w (decimal n) = some (min n (2 ^ w - 1)) := by
  have hne : decimal n ≠ [] := by
    unfold decimal; split_ifs <;> simp [*, Nat.digits_ne_nil_iff_ne_zero]
  rw [readUnsigned, if_neg hne, ofDigits_decimal]

theorem sideOf_sideWord {side : Side} (hs : side = 'B' ∨ side = 'S') :
    ClientCLI.sideOf (sideWord side) = side := by
  rcases hs with rfl | rfl <;> rfl

theorem matchAtoms_sideWord {as : List CLIAtom} {cs : List Char} {side : Side}
    (hs : side = 'B' ∨ side = 'S') :
    matchAtoms (.alt ClientCLI.buy ClientCLI.sell :: as) (sideWord side ++ cs) =
      (matchAtoms as cs).map (sideWord side :: ·) := by
  rcases hs with rfl | rfl
  · exact matchAtoms_alt_left _ _
  · exact matchAtoms_alt_right rfl

end Messages

/-! ## §6 Each line parses back -/

namespace ClientCLI

theorem parse_login {u p : String} (hc : (u.toList ++ p.toList).all Char.isAlphanum)
    (hu : u.length = 4) (hp : p.length = 12) :
    parse ⟨(Request.loginRequest u p).commandLine⟩ = .ok (.send (.loginRequest u p)) := by
  rw [List.all_eq_true] at hc
  have hm : matchAtoms loginRegex (Request.loginRequest u p).commandLine =
      some [u.toList, p.toList] := by
    rw [Request.commandLine, loginRegex, matchAtoms_lit_append,
      matchAtoms_star_append (fun x hx => hc x (List.mem_append_left _ hx)) (by simp),
      matchAtoms_lit_append,
      matchAtoms_star_append (fun x hx => hc x (List.mem_append_right _ hx)) (by simp)]
    rfl
  simp only [parse, String.toList, hm]
  simp [login, makeUsername, makePassword, makeArray, hu, hp, bind, Except.bind, pure,
    Except.pure]

theorem parse_logout : parse ⟨Request.logoutRequest.commandLine⟩ = .ok (.send .logoutRequest) :=
  rfl

/-- A market order's quantity is read into a `Quantity`. -/
theorem parse_market {q : Nat} {side : Side} (hs : side = 'B' ∨ side = 'S') :
    parse ⟨(Request.orderRequest orderPriceMarket q side).commandLine⟩ =
      .ok (.send (.orderRequest orderPriceMarket (min q (2 ^ 32 - 1)) side)) := by
  have hm : matchAtoms marketRegex (Request.orderRequest orderPriceMarket q side).commandLine =
      some [sideWord side, decimal q] := by
    rw [Request.commandLine, if_pos rfl, marketRegex, matchAtoms_lit_append,
      matchAtoms_sideWord hs, matchAtoms_lit_append,
      matchAtoms_star_append (decimal_isDigit q) (by simp)]
    rfl
  simp only [parse, String.toList, hm, marketOrder, str_cons_one,
    str_cons_add_two, Nat.zero_add, readUnsigned_decimal, sideOf_sideWord hs]
  rfl

/-- A limit order's quantity is read into a `Quantity` and its price into a `Price`. -/
theorem parse_limit {price q : Nat} {side : Side} (hs : side = 'B' ∨ side = 'S')
    (hp : price ≠ orderPriceMarket) :
    parse ⟨(Request.orderRequest price q side).commandLine⟩ =
      .ok (.send (.orderRequest (min price (2 ^ 64 - 1)) (min q (2 ^ 32 - 1)) side)) := by
  have hl : (Request.orderRequest price q side).commandLine = "limit ".toList ++
      (sideWord side ++ ([' '] ++ (decimal q ++ ([' '] ++ (decimal price ++ ['\n']))))) := by
    rw [Request.commandLine, if_neg hp]
  have hm : matchAtoms limitRegex (Request.orderRequest price q side).commandLine =
      some [sideWord side, decimal q, decimal price] := by
    rw [hl, limitRegex, matchAtoms_lit_append, matchAtoms_sideWord hs, matchAtoms_lit_append,
      matchAtoms_star_append (decimal_isDigit q) (by simp), matchAtoms_lit_append,
      matchAtoms_star_append (decimal_isDigit price) (by simp)]
    rfl
  simp only [parse, String.toList, hm, limitOrder, str_cons_one,
    str_cons_add_two, Nat.zero_add, readUnsigned_decimal, sideOf_sideWord hs]
  rw [hl]
  rfl

/-- A cancel's order id is read into an `OrderID`. -/
theorem parse_cancel (orderId : Nat) :
    parse ⟨(Request.cancelRequest orderId).commandLine⟩ =
      .ok (.send (.cancelRequest (min orderId (2 ^ 64 - 1)))) := by
  have hm : matchAtoms cancelRegex (Request.cancelRequest orderId).commandLine =
      some [decimal orderId] := by
    rw [Request.commandLine, cancelRegex, matchAtoms_lit_append,
      matchAtoms_star_append (decimal_isDigit orderId) (by simp)]
    rfl
  simp only [parse, String.toList, hm, cancelOrder, str_cons_one,
    str_cons_add_two, Nat.zero_add, readUnsigned_decimal]
  rfl

/-- A replace's order id and price are read into an `OrderID` and a `Price`, its quantity into a
`Quantity`. -/
theorem parse_replace {orderId price q : Nat} {side : Side} (hs : side = 'B' ∨ side = 'S') :
    parse ⟨(Request.replaceRequest orderId price q side).commandLine⟩ =
      .ok (.send (.replaceRequest (min orderId (2 ^ 64 - 1)) (min price (2 ^ 64 - 1))
        (min q (2 ^ 32 - 1)) side)) := by
  have hm : matchAtoms replaceRegex (Request.replaceRequest orderId price q side).commandLine =
      some [decimal orderId, sideWord side, decimal q, decimal price] := by
    rw [Request.commandLine, replaceRegex, matchAtoms_lit_append,
      matchAtoms_star_append (decimal_isDigit orderId) (by simp), matchAtoms_lit_append,
      matchAtoms_sideWord hs, matchAtoms_lit_append,
      matchAtoms_star_append (decimal_isDigit q) (by simp), matchAtoms_lit_append,
      matchAtoms_star_append (decimal_isDigit price) (by simp)]
    rfl
  simp only [parse, String.toList, hm, replaceOrder, str_cons_one,
    str_cons_add_two, Nat.zero_add, readUnsigned_decimal, sideOf_sideWord hs]
  rfl

theorem parse_purge : parse ⟨Request.purgeRequest.commandLine⟩ = .ok (.send .purgeRequest) :=
  rfl

end ClientCLI

/-- **The command line of a request sends it.** For every request a user can type (alphanumeric
credentials of 4 and 12 characters, a side of `'B'` or `'S'`, numbers that fit their fields), the
line with the request's words and its numbers in decimal makes `ClientCLI::parse` send exactly
that request. -/
theorem client_cli_round_trip {r : Request} (h : r.Typable) :
    ClientCLI.parse ⟨r.commandLine⟩ = .ok (.send r) := by
  cases r with
  | loginRequest u p => exact ClientCLI.parse_login h.1 h.2.1 h.2.2
  | logoutRequest => exact ClientCLI.parse_logout
  | orderRequest price q side =>
    obtain ⟨hs, hq, hp⟩ := h
    by_cases h0 : price = orderPriceMarket
    · subst h0
      rw [ClientCLI.parse_market hs, min_eq_left (by omega)]
    · rw [ClientCLI.parse_limit hs h0, min_eq_left (by omega), min_eq_left (by omega)]
  | cancelRequest orderId =>
    have ho : orderId < 2 ^ 64 := h
    rw [ClientCLI.parse_cancel, min_eq_left (by omega)]
  | replaceRequest orderId price q side =>
    obtain ⟨hs, ho, hq, hp⟩ := h
    rw [ClientCLI.parse_replace hs, min_eq_left (by omega), min_eq_left (by omega),
      min_eq_left (by omega)]
  | purgeRequest => exact ClientCLI.parse_purge
  | header => exact h.elim

theorem client_cli_replace_round_trip :
    (Request.replaceRequest 7 101 5 'S').Typable ∧
      (Request.replaceRequest 7 101 5 'S').commandLine = "replace 7 sell 5 101\n".toList ∧
      ClientCLI.parse ⟨(Request.replaceRequest 7 101 5 'S').commandLine⟩ =
        .ok (.send (.replaceRequest 7 101 5 'S')) :=
  ⟨by decide, by simp [Request.commandLine, decimal, sideWord, ClientCLI.sell],
    client_cli_round_trip (by decide)⟩

end CboeEmulator.OrderEntry

import CboeEmulator.DataFeed.Mirror

/-!
# Market-Data Feed: Datagrams

The feed on the wire. `Sender::send<T>` builds each message by placement new in a zeroed
40-byte `Messages::Packet`: the packed `Header` (length, `MessageID`, padding, sequence number,
time) followed by the packed payload. `Receiver::read_message` takes each datagram, checks its
sequence number and casts it to the message its `MessageID` byte names.

The receiver never reads the header's `length`. A datagram whose length disagrees with the
`sizeof` of its kind is handled like a well-formed one (`readMessage_withLength`,
`ill_formed_add_order_applied`). The datagrams the sender builds are decoded exactly: reading
them in order does what the message-level `Receiver.run` does (`readAll_sendAll`), so a receiver
fed the datagrams of a reachable book's feed mirrors that book (`datagrams_mirror_book`).

## Representation

- A `Packet` is its 40 bytes, as a list that carries its length.
- Multi-byte fields are in the x86 byte order, least significant byte first, as
  `reinterpret_cast` reads a packed struct there.
- `SequenceNumber` (`uint32_t`) is `BitVec 32`. `OrderID` and `Price` are 8-byte fields and
  `Quantity` a 4-byte one; the message-level model keeps them as natural numbers, which fit their
  fields when `Message.Fits` holds.
- The socket's error path, the `std::cerr` lines of the sequence check and the re-arming
  `read_message()` call change no state that a handler reads and are left out. `handle(Header)`
  throws; its text prints the header's address and is left out.

## Main definitions

- `Packet`, `Packet.message`: a datagram, and the message `read_message` casts it to;
- `encode`, `sendAll`: the datagram `Sender::send` builds, and those of a run of sends;
- `readMessage`, `readAll`: `read_message`'s completion handler on one datagram, and on several.

## Main results

- `readMessage_withLength`: the result of `read_message` does not depend on the length field;
- `ill_formed_add_order_applied`: an `AddOrder` datagram of length 0 is applied and passed on;
- `message_encode`, `readAll_sendAll`: the sender's datagrams decode to what was sent;
- `datagrams_mirror_book`: the receiver of a reachable book's datagrams mirrors the book.
-/

namespace CboeEmulator.DataFeed

open OrderEntry.LOB (BookError)
open Messages (Message)

/-! ## §1 Little-endian fields -/

/-- The `w` bytes of `n`, least significant first; bits above `8 * w` are dropped. -/
def toBytesLE : Nat → Nat → List UInt8
  | 0, _ => []
  | w + 1, n => UInt8.ofNat n :: toBytesLE w (n / 256)

/-- The natural number whose bytes, least significant first, are `bs`. -/
def ofBytesLE : List UInt8 → Nat
  | [] => 0
  | b :: bs => b.toNat + 256 * ofBytesLE bs

@[simp] theorem length_toBytesLE (w n : Nat) : (toBytesLE w n).length = w := by
  induction w generalizing n with
  | zero => rfl
  | succ w ih => simp [toBytesLE, ih]

/-- Reading back a field gives the number modulo the field's range. -/
theorem ofBytesLE_toBytesLE (w n : Nat) : ofBytesLE (toBytesLE w n) = n % 256 ^ w := by
  induction w generalizing n with
  | zero => simp [toBytesLE, ofBytesLE, Nat.mod_one]
  | succ w ih =>
    have hb : (UInt8.ofNat n).toNat = n % 256 := rfl
    rw [toBytesLE, ofBytesLE, ih, hb, pow_succ', Nat.mod_mul]

theorem ofBytesLE_toBytesLE_of_lt {w n : Nat} (h : n < 256 ^ w) : ofBytesLE (toBytesLE w n) = n := by
  rw [ofBytesLE_toBytesLE, Nat.mod_eq_of_lt h]

/-! ## §2 Datagrams -/

/-- `Messages::Packet` (`std::array<char, 40>`): the bytes of one datagram. -/
structure Packet where
  /-- the datagram's bytes, in order -/
  bytes : List UInt8
  /-- a packet is 40 bytes: the largest message, 37 bytes, aligned to 8 -/
  length_eq : bytes.length = 40

namespace Packet

/-- The byte at `offset`. -/
def byte (p : Packet) (offset : Nat) : UInt8 := (p.bytes.drop offset).headD 0

/-- The `width`-byte little-endian field at `offset`. -/
def field (p : Packet) (offset width : Nat) : Nat := ofBytesLE ((p.bytes.drop offset).take width)

/-- `Header::length`: bytes 0 and 1. -/
def length (p : Packet) : Nat := p.field 0 2

/-- `Header::uid`, the `MessageID`: byte 2. -/
def uid (p : Packet) : Char := Char.ofNat (p.byte 2).toNat

/-- `Header::sequence`: bytes 4 to 7. -/
def sequence (p : Packet) : BitVec 32 := BitVec.ofNat 32 (p.field 4 4)

/-- `read_message`'s `switch` on `Header::uid` and the `reinterpret_cast` of each case: the
payload starts at byte 16; `uid`, `price`, `quantity` and `side` of `AddOrder` and `Trade` are
at 16, 24, 32 and 36, and `uid` of `DeleteOrder` at 16. An unknown `MessageID` is `none`. -/
def message (p : Packet) : Option Message :=
  match p.uid with
  | 's' => some .startOfSession
  | 'e' => some .endOfSession
  | 'c' => some .clear
  | 'a' => some (.addOrder (p.field 16 8) (p.field 24 8) (p.field 32 4) (Char.ofNat (p.byte 36).toNat))
  | 'd' => some (.deleteOrder (p.field 16 8))
  | 't' => some (.trade (p.field 16 8) (p.field 24 8) (p.field 32 4) (Char.ofNat (p.byte 36).toNat))
  | _ => none

/-- The datagram with its length field overwritten by `n`. -/
def withLength (p : Packet) (n : Nat) : Packet :=
  ⟨toBytesLE 2 n ++ p.bytes.drop 2, by simp [p.length_eq]⟩

/-- A zeroed packet with `bs` written at its start (`emplace_back()`, then placement new). -/
def ofPrefix (bs : List UInt8) (h : bs.length ≤ 40) : Packet :=
  ⟨bs ++ List.replicate (40 - bs.length) 0, by simp; omega⟩

end Packet

/-! ## §3 What the sender writes -/

namespace Messages.Message

/-- `sizeof` of each packed message struct: the 16-byte header and the payload. -/
def sizeof : Message → Nat
  | .clear | .startOfSession | .endOfSession => 16
  | .addOrder .. | .trade .. => 37
  | .deleteOrder _ => 24

/-- The `MessageID` of each message. -/
def messageId : Message → Char
  | .clear => 'c'
  | .addOrder .. => 'a'
  | .deleteOrder _ => 'd'
  | .trade .. => 't'
  | .startOfSession => 's'
  | .endOfSession => 'e'

/-- The packed payload after the header. -/
def payload : Message → List UInt8
  | .addOrder uid price quantity side | .trade uid price quantity side =>
    toBytesLE 8 uid ++ toBytesLE 8 price ++ toBytesLE 4 quantity ++ [UInt8.ofNat side.toNat]
  | .deleteOrder uid => toBytesLE 8 uid
  | .clear | .startOfSession | .endOfSession => []

/-- The payload fields fit their C++ types: `OrderID` and `Price` in 8 bytes, `Quantity` in 4,
the side in one `char`. -/
def Fits : Message → Prop
  | .addOrder uid price quantity side | .trade uid price quantity side =>
    uid < 256 ^ 8 ∧ price < 256 ^ 8 ∧ quantity < 256 ^ 4 ∧ side.toNat < 256
  | .deleteOrder uid => uid < 256 ^ 8
  | .clear | .startOfSession | .endOfSession => True

instance : DecidablePred Fits
  | .addOrder .. | .trade .. => inferInstanceAs (Decidable (_ ∧ _ ∧ _ ∧ _))
  | .deleteOrder _ => inferInstanceAs (Decidable (_ < _))
  | .clear | .startOfSession | .endOfSession => inferInstanceAs (Decidable True)

theorem length_payload (m : Message) : m.payload.length = m.sizeof - 16 := by
  cases m <;> simp [payload, sizeof]

end Messages.Message

/-- The header `Sender::send<T>` writes: `sizeof(T)`, the `MessageID`, a zero padding byte, the
sequence number and the time. -/
def header (m : Message) (sequence time : Nat) : List UInt8 :=
  toBytesLE 2 m.sizeof ++ [UInt8.ofNat m.messageId.toNat, 0] ++ toBytesLE 4 sequence ++
    toBytesLE 8 time

@[simp] theorem length_header (m : Message) (sequence time : Nat) :
    (header m sequence time).length = 16 := by
  simp [header]

/-- `Sender::send<T>(args...)`: `T{args..., sequence, Clock::get_time()}` built in a zeroed
packet. -/
def encode (m : Message) (sequence time : Nat) : Packet :=
  .ofPrefix (header m sequence time ++ m.payload) (by
    cases m <;> simp [Message.payload])

/-- The datagrams of messages sent one after another from sequence number `sequence`
(`sequence++` in `send`), each with the time it was sent. -/
def sendAll : Nat → List (Message × Nat) → List Packet
  | _, [] => []
  | sequence, (m, time) :: ms => encode m sequence time :: sendAll (sequence + 1) ms

/-! ## §4 What the receiver reads -/

/-- The exceptions `read_message`'s completion handler lets out. -/
inductive ReadError where
  /-- `handle(Header)`: "Receiver::handle(Header) - received message with invalid header" -/
  | invalidHeader (uid : Char)
  /-- the mirror book throws (`reduce` of more than the order has) -/
  | book (e : BookError)

/-- What one datagram leaves: the receiver, `last_sequence`, and the message passed to
`handler.did_receive`, if any. -/
structure Received where
  /-- the book and the session flag -/
  receiver : Receiver
  /-- `last_sequence` -/
  lastSequence : BitVec 32
  /-- the message passed to the handler -/
  delivered : Option Message

namespace Receiver

/-- Whether `handle` reaches `handler.did_receive`: a `DeleteOrder` or a `Trade` for a uid the
book does not have returns first. -/
def passes (r : Receiver) : Message → Bool
  | .deleteOrder uid | .trade uid .. => r.book.has uid
  | .clear | .addOrder .. | .startOfSession | .endOfSession => true

/-- `read_message`'s completion handler: `++last_sequence` is compared with the header's
sequence number, and `last_sequence` is reset to it when they differ; then the message the
`MessageID` names is handled. -/
def readMessage (r : Receiver) (lastSequence : BitVec 32) (p : Packet) :
    Except ReadError Received :=
  let expected := lastSequence + 1
  let lastSequence := if p.sequence ≠ expected then p.sequence else expected
  match p.message with
  | none => .error (.invalidHeader p.uid)
  | some m =>
    match r.handle m with
    | .error e => .error (.book e)
    | .ok r' => .ok ⟨r', lastSequence, if r.passes m then some m else none⟩

/-- Datagrams one after another, stopping at the first exception. -/
def readAll (r : Receiver) (lastSequence : BitVec 32) :
    List Packet → Except ReadError (Receiver × BitVec 32)
  | [] => .ok (r, lastSequence)
  | p :: ps =>
    match r.readMessage lastSequence p with
    | .error e => .error e
    | .ok x => x.receiver.readAll x.lastSequence ps

theorem readAll_cons (r : Receiver) (lastSequence : BitVec 32) (p : Packet) (ps : List Packet) :
    r.readAll lastSequence (p :: ps) = match r.readMessage lastSequence p with
      | .error e => .error e
      | .ok x => x.receiver.readAll x.lastSequence ps := rfl

/-- A datagram cast to `m` is `m` handled, `last_sequence` set to its sequence number. -/
theorem readMessage_of_message (r : Receiver) (lastSequence : BitVec 32) {p : Packet} {m : Message}
    (h : p.message = some m) :
    r.readMessage lastSequence p = match r.handle m with
      | .error e => .error (.book e)
      | .ok r' => .ok ⟨r', if p.sequence ≠ lastSequence + 1 then p.sequence else lastSequence + 1,
          if r.passes m then some m else none⟩ := by
  unfold readMessage
  rw [h]

end Receiver

/-! ## §5 The length field is never read -/

namespace Packet

variable {p q : Packet}

/-- Packets that agree from byte 2 on agree from every later offset. -/
theorem drop_congr (h : p.bytes.drop 2 = q.bytes.drop 2) {offset : Nat} (ho : 2 ≤ offset) :
    p.bytes.drop offset = q.bytes.drop offset := by
  obtain ⟨k, rfl⟩ := Nat.exists_eq_add_of_le ho
  rw [← List.drop_drop, h, List.drop_drop]

theorem byte_congr (h : p.bytes.drop 2 = q.bytes.drop 2) {offset : Nat} (ho : 2 ≤ offset) :
    p.byte offset = q.byte offset := by
  rw [byte, byte, drop_congr h ho]

theorem field_congr (h : p.bytes.drop 2 = q.bytes.drop 2) {offset : Nat} (ho : 2 ≤ offset)
    (width : Nat) : p.field offset width = q.field offset width := by
  rw [field, field, drop_congr h ho]

theorem uid_congr (h : p.bytes.drop 2 = q.bytes.drop 2) : p.uid = q.uid := by
  rw [uid, uid, byte_congr h le_rfl]

theorem sequence_congr (h : p.bytes.drop 2 = q.bytes.drop 2) : p.sequence = q.sequence := by
  rw [sequence, sequence, field_congr h (by decide)]

/-- The message a packet is cast to is read from byte 2 on. -/
theorem message_congr (h : p.bytes.drop 2 = q.bytes.drop 2) : p.message = q.message := by
  unfold message
  simp (disch := omega) only [uid_congr h, field_congr h, byte_congr h]

theorem drop_withLength (p : Packet) (n : Nat) : (p.withLength n).bytes.drop 2 = p.bytes.drop 2 :=
  List.drop_left' (length_toBytesLE 2 n)

/-- `withLength` writes the length field. -/
theorem length_withLength (p : Packet) {n : Nat} (h : n < 2 ^ 16) : (p.withLength n).length = n := by
  rw [length, field, List.drop_zero, withLength, List.take_left' (length_toBytesLE 2 n),
    ofBytesLE_toBytesLE_of_lt h]

end Packet

namespace Receiver

/-- `read_message` reads nothing of a datagram before byte 2. -/
theorem readMessage_congr (r : Receiver) (lastSequence : BitVec 32) {p q : Packet}
    (h : p.bytes.drop 2 = q.bytes.drop 2) :
    r.readMessage lastSequence p = r.readMessage lastSequence q := by
  unfold readMessage
  rw [Packet.uid_congr h, Packet.sequence_congr h, Packet.message_congr h]

/-- **`read_message` ignores the length field**: every length gives the datagram the same
effect, whatever its kind. -/
theorem readMessage_withLength (r : Receiver) (lastSequence : BitVec 32) (p : Packet) (n : Nat) :
    r.readMessage lastSequence (p.withLength n) = r.readMessage lastSequence p :=
  r.readMessage_congr lastSequence (p.drop_withLength n)

end Receiver

/-- **An `AddOrder` datagram whose length field is 0 is applied.** The sender's datagram for
`AddOrder(uid 1, price 100, quantity 10, 'S')` with sequence number 1, its length overwritten by 0
where `sizeof(AddOrder)` is 37, reaches the new receiver. The order enters the mirror book and the
message is passed to the handler. -/
theorem ill_formed_add_order_applied :
    ((encode (.addOrder 1 100 10 'S') 1 0).withLength 0).message = some (.addOrder 1 100 10 'S') ∧
      ((encode (.addOrder 1 100 10 'S') 1 0).withLength 0).length = 0 ∧
      (Message.addOrder 1 100 10 'S').sizeof = 37 ∧
      ∃ x : Received, Receiver.init.readMessage 0 ((encode (.addOrder 1 100 10 'S') 1 0).withLength 0) =
        .ok x ∧ Receiver.init.book.has 1 = false ∧ x.receiver.book.has 1 = true ∧
        x.delivered = some (.addOrder 1 100 10 'S') := by
  refine ⟨by decide, by decide, rfl, _, rfl, by decide, by decide, rfl⟩

/-! ## §6 The sender's datagrams decode to what was sent -/

/-- A side byte that fits a `char` reads back as itself. -/
theorem ofNat_toNat_ofNat {c : Char} (h : c.toNat < 256) : Char.ofNat (UInt8.ofNat c.toNat).toNat = c := by
  rw [show (UInt8.ofNat c.toNat).toNat = c.toNat % 256 from rfl, Nat.mod_eq_of_lt h,
    Char.ofNat_toNat]

/-- A field read where it was written. -/
@[simp] theorem ofBytesLE_take_toBytesLE (w n : Nat) (l : List UInt8) :
    ofBytesLE ((toBytesLE w n ++ l).take w) = n % 256 ^ w := by
  rw [List.take_left' (length_toBytesLE w n), ofBytesLE_toBytesLE]

namespace Packet

variable {p : Packet} {a b c : Nat} {d : UInt8} {z : List UInt8}

/-- The fields of an `AddOrder` or a `Trade` payload written from byte 16. -/
theorem fields_of_drop
    (h : p.bytes.drop 16 = toBytesLE 8 a ++ (toBytesLE 8 b ++ (toBytesLE 4 c ++ (d :: z)))) :
    p.field 16 8 = a % 256 ^ 8 ∧ p.field 24 8 = b % 256 ^ 8 ∧ p.field 32 4 = c % 256 ^ 4 ∧
      p.byte 36 = d := by
  have h24 : p.bytes.drop 24 = toBytesLE 8 b ++ (toBytesLE 4 c ++ (d :: z)) := by
    rw [show 24 = 16 + 8 from rfl, ← List.drop_drop, h, List.drop_left' (length_toBytesLE 8 a)]
  have h32 : p.bytes.drop 32 = toBytesLE 4 c ++ (d :: z) := by
    rw [show 32 = 24 + 8 from rfl, ← List.drop_drop, h24, List.drop_left' (length_toBytesLE 8 b)]
  have h36 : p.bytes.drop 36 = d :: z := by
    rw [show 36 = 32 + 4 from rfl, ← List.drop_drop, h32, List.drop_left' (length_toBytesLE 4 c)]
  exact ⟨by rw [field, h, ofBytesLE_take_toBytesLE], by rw [field, h24, ofBytesLE_take_toBytesLE],
    by rw [field, h32, ofBytesLE_take_toBytesLE], by rw [byte, h36]; rfl⟩

end Packet

/-- The layout `Sender::send` writes: the header's fields, the payload, zeros. -/
theorem encode_bytes (m : Message) (sequence time : Nat) :
    (encode m sequence time).bytes = toBytesLE 2 m.sizeof ++ (UInt8.ofNat m.messageId.toNat :: 0 ::
      (toBytesLE 4 sequence ++ (toBytesLE 8 time ++
        (m.payload ++ List.replicate (24 - m.payload.length) 0)))) := by
  simp only [encode, Packet.ofPrefix, header, List.append_assoc, List.length_append,
    length_toBytesLE, List.cons_append, List.singleton_append, List.nil_append, List.length_cons,
    List.length_nil]
  congr 7
  omega

theorem drop_two_encode (m : Message) (sequence time : Nat) :
    (encode m sequence time).bytes.drop 2 = UInt8.ofNat m.messageId.toNat :: 0 ::
      (toBytesLE 4 sequence ++ (toBytesLE 8 time ++
        (m.payload ++ List.replicate (24 - m.payload.length) 0))) := by
  rw [encode_bytes, List.drop_left' (length_toBytesLE 2 _)]

theorem drop_four_encode (m : Message) (sequence time : Nat) :
    (encode m sequence time).bytes.drop 4 = toBytesLE 4 sequence ++ (toBytesLE 8 time ++
      (m.payload ++ List.replicate (24 - m.payload.length) 0)) := by
  rw [show 4 = 2 + 2 from rfl, ← List.drop_drop, drop_two_encode]
  rfl

theorem drop_sixteen_encode (m : Message) (sequence time : Nat) :
    (encode m sequence time).bytes.drop 16 = m.payload ++ List.replicate (24 - m.payload.length) 0 := by
  rw [show 16 = 4 + 4 + 8 from rfl, ← List.drop_drop, ← List.drop_drop, drop_four_encode,
    List.drop_left' (length_toBytesLE 4 _), List.drop_left' (length_toBytesLE 8 _)]

/-- The sender writes each message's `sizeof` in the length field. -/
theorem length_encode (m : Message) (sequence time : Nat) :
    (encode m sequence time).length = m.sizeof := by
  rw [Packet.length, Packet.field, List.drop_zero, encode_bytes, ofBytesLE_take_toBytesLE]
  cases m <;> rfl

theorem uid_encode (m : Message) (sequence time : Nat) :
    (encode m sequence time).uid = m.messageId := by
  rw [Packet.uid, Packet.byte, drop_two_encode]
  exact ofNat_toNat_ofNat (by unfold Message.messageId; split <;> decide)

theorem sequence_encode (m : Message) (sequence time : Nat) :
    (encode m sequence time).sequence = BitVec.ofNat 32 sequence := by
  rw [Packet.sequence, Packet.field, drop_four_encode, ofBytesLE_take_toBytesLE]
  apply BitVec.eq_of_toNat_eq
  simp

/-- **The receiver casts the sender's datagram to the message sent**, when its fields fit their
C++ types. -/
theorem message_encode {m : Message} (h : m.Fits) (sequence time : Nat) :
    (encode m sequence time).message = some m := by
  have h16 := drop_sixteen_encode m sequence time
  rw [Packet.message, uid_encode]
  cases m with
  | addOrder uid price quantity side | trade uid price quantity side =>
    obtain ⟨hu, hp, hq, hs⟩ := h
    simp only [Message.payload, List.append_assoc, List.singleton_append] at h16
    obtain ⟨h1, h2, h3, h4⟩ := Packet.fields_of_drop h16
    rw [h1, h2, h3, h4, Nat.mod_eq_of_lt hu, Nat.mod_eq_of_lt hp, Nat.mod_eq_of_lt hq,
      ofNat_toNat_ofNat hs]
    rfl
  | deleteOrder uid =>
    rw [Packet.field, h16, Message.payload, ofBytesLE_take_toBytesLE, Nat.mod_eq_of_lt h]
    rfl
  | clear | startOfSession | endOfSession => rfl

namespace Receiver

theorem run_cons (r : Receiver) (m : Message) (ms : List Message) :
    r.run (m :: ms) = r.handle m >>= fun r' => r'.run ms := rfl

/-- **Reading the sender's datagrams is replaying the messages.** Messages whose fields fit are
sent one after another from any sequence number, with any times; the receiver that reads the
datagrams in order, from any `last_sequence`, ends as `Receiver.run` on the messages does. -/
theorem readAll_sendAll {ms : List (Message × Nat)} (hfit : ∀ x ∈ ms, x.1.Fits) (r : Receiver)
    (lastSequence : BitVec 32) (sequence : Nat) :
    (r.readAll lastSequence (sendAll sequence ms)).map Prod.fst =
      (r.run (ms.map Prod.fst)).mapError .book := by
  induction ms generalizing r lastSequence sequence with
  | nil => rfl
  | cons x ms ih =>
    obtain ⟨m, time⟩ := x
    rw [sendAll, readAll_cons,
      r.readMessage_of_message _ (message_encode (hfit _ (List.mem_cons_self _ _)) _ _),
      List.map_cons, run_cons]
    cases r.handle m with
    | error e => rfl
    | ok r' => exact ih (fun x hx => hfit x (List.mem_cons_of_mem _ hx)) _ _ _

end Receiver

/-! ## §7 The datagrams of a reachable book -/

/-- **The receiver of a book's datagrams mirrors the book.** Take a book reached from an empty one
by `limit`, `market` and `cancel` calls whose feed messages fit their fields. The sender numbers
them from any sequence number and stamps them with any times. The new receiver reads the datagrams
in order, from any `last_sequence`, without an exception, and its book mirrors the server's. -/
theorem datagrams_mirror_book (accounts : OrderEntry.LOB.AccountId → OrderEntry.LOB.Account)
    {e : OrderEntry.LOB.Engine}
    (h : OrderEntry.LOB.Reachable OrderEntry.LOB.Request.Reported
      (OrderEntry.LOB.Engine.init accounts) e)
    (ms : List (Message × Nat)) (hms : ms.map Prod.fst = e.feed) (hfit : ∀ m ∈ e.feed, m.Fits)
    (lastSequence : BitVec 32) (sequence : Nat) :
    ∃ r last, Receiver.init.readAll lastSequence (sendAll sequence ms) = .ok (r, last) ∧
      OrderEntry.LOB.Mirrors [] e r.book := by
  obtain ⟨r, hr, -, hm⟩ := h.replayed accounts
  have hread := Receiver.init.readAll_sendAll
    (fun x hx => hfit _ (hms ▸ List.mem_map_of_mem Prod.fst hx)) lastSequence sequence
  rw [hms, hr] at hread
  cases hx : Receiver.init.readAll lastSequence (sendAll sequence ms) with
  | error e => rw [hx] at hread; cases hread
  | ok y =>
    rw [hx] at hread
    cases hread
    exact ⟨y.1, y.2, rfl, hm⟩

theorem datagrams_mirror_crossing_limit :
    ∃ r last, Receiver.init.readAll 0 (sendAll 1 [(.addOrder 1 100 10 'S', 0),
        (.trade 1 100 4 'B', 0)]) = .ok (r, last) ∧
      OrderEntry.LOB.Mirrors [] (OrderEntry.LOB.LimitOrderBook.limit
        (OrderEntry.LOB.LimitOrderBook.limit (OrderEntry.LOB.Engine.init fun _ => .new)
          "A" .sell 10 100).2 "B" .buy 4 100).2 r.book :=
  datagrams_mirror_book _ (.step (.limit "B" .buy 4 100) trivial
    (.step (.limit "A" .sell 10 100) trivial .start rfl) rfl) _ (by decide) (by decide) 0 1

end CboeEmulator.DataFeed

import CboeEmulator.DataFeed.Packets
import CboeEmulator.OrderEntry.ClientMirror

/-!
# Order-Entry Protocol: Packets on the Wire

The order-entry protocol as the two ends exchange it. Both build each message the same way:
`send<T>(args...)` places `T{sequence++, args...}` at the start of a zeroed 40-byte
`Messages::Packet`: the packed `Header` (length, `MessageID`, a padding byte, the sequence number)
and then the struct's packed fields. Both read loops take a packet, `switch` on the header's
`MessageID` and `reinterpret_cast` the packet to the struct it names: `Connection::read_buffer`
to a request, `Client::read_buffer` to a response.

Neither read loop reads the length field or the sequence number. The server casts a packet of
any `MessageID` that is not a request's to the bare `Header`; the client throws on one that is
not a response's.

## Main definitions

- `Packet.write`: a struct placed at the start of a zeroed packet;
- `Request.encode`, `Frame.encode`: the packets `Client::send` and `Connection::send` build;
- `Packet.request`: the request `Connection::read_buffer` casts a packet to;
- `Client.readPacket`, `Client.readAll`: `Client::read_buffer`'s handling of one packet, and of a
  queue of them.

## Main results

- `request_encode`: the server dispatches each packet a client sends to the request it was
  built from;
- `server_reads_client_packets`: what the server dispatches on reads no header byte but the
  `MessageID`;
- `readPacket_encode`, `client_reads_server_packets`: the client's handler of a packet the server
  sends is the handler of the frame it was built from, and its read loop over a queue of them is
  the loop over the frames.

## Representation

- `Messages::Packet` of `order_entry/messages.hpp` is the same `std::array<char, 40>` as the data
  feed's, and is the data feed's `Packet` here, with its little-endian fields.
- A `std::string` is a `String` whose characters are its bytes, each below 256; `Username` and
  `Password` are the `char` arrays `make_username` and `make_password` copy them into.
- The enumerations are their `char` values. The client reads a status only through
  `status == Rejected` (a `LoginResponse` through a `switch` that ignores other values) and no
  logout reason, and these are the readings modelled.
-/

namespace CboeEmulator.OrderEntry

open DataFeed (toBytesLE ofBytesLE ofBytesLE_toBytesLE_of_lt length_toBytesLE)

namespace Messages

/-! ## §1 Packets and fields -/

/-- A `char` as the byte it is stored in. -/
def charByte (c : Char) : UInt8 := UInt8.ofNat c.toNat

/-- The bytes `make_username` and `make_password` copy: one `char` per character. -/
def charBytes (s : String) : List UInt8 := s.toList.map charByte

/-- `typedef std::array<char, 40> Packet`. -/
abbrev Packet := DataFeed.Packet

namespace Packet

/-- A struct placed at the start of a zeroed packet (`emplace_back()`, then placement `new`): its
bytes, then zeros up to 40. -/
def write (bs : List UInt8) : Packet := ⟨(bs ++ List.replicate 40 0).take 40, by simp⟩

/-- The `char` at `offset`. -/
def char (p : Packet) (offset : Nat) : Char := Char.ofNat (p.byte offset).toNat

/-- `std::string(std::begin(a), std::end(a))` of the `char` array of `width` bytes at `offset`. -/
def string (p : Packet) (offset width : Nat) : String :=
  ⟨((p.bytes.drop offset).take width).map fun b => Char.ofNat b.toNat⟩

end Packet

/-- The packed `Header{sizeof(T), MessageID::T, sequence}` a struct's constructor writes, its
padding byte 0 and its `uint32_t` sequence number taken modulo 2^32. -/
def frameHeader (size : Nat) (id : Char) (sequence : Nat) : List UInt8 :=
  toBytesLE 2 size ++ [charByte id, 0] ++ toBytesLE 4 sequence

theorem char_charByte {c : Char} (h : c.toNat < 256) : Char.ofNat (charByte c).toNat = c := by
  have : (charByte c).toNat = c.toNat := Nat.mod_eq_of_lt h
  rw [this, Char.ofNat_toNat]

@[simp] theorem length_charBytes (s : String) : (charBytes s).length = s.length := by
  cases s; simp [charBytes]

/-- A string of bytes reads back from the `char` array it was copied into. -/
theorem string_charBytes {s : String} (h : ∀ c ∈ s.toList, c.toNat < 256) :
    (⟨(charBytes s).map fun b => Char.ofNat b.toNat⟩ : String) = s := by
  have hs : (charBytes s).map (fun b => Char.ofNat b.toNat) = s.toList := by
    rw [charBytes, List.map_map]
    exact (List.map_congr_left fun c hc => char_charByte (h c hc)).trans (List.map_id _)
  rw [hs]; rfl

@[simp] theorem length_frameHeader (size : Nat) (id : Char) (sequence : Nat) :
    (frameHeader size id sequence).length = 8 := by
  simp [frameHeader]

namespace Packet

variable {bs : List UInt8} {o w : Nat}

/-- Within the struct, the packet holds the struct's bytes. -/
theorem write_drop_take (hb : bs.length ≤ 40) (h : o + w ≤ bs.length) :
    ((write bs).bytes.drop o).take w = (bs.drop o).take w := by
  simp only [write, List.drop_take, List.take_take]
  rw [Nat.min_eq_left (by omega), List.drop_append_of_le_length (by omega),
    List.take_append_of_le_length (by simp; omega)]

theorem field_write (hb : bs.length ≤ 40) (h : o + w ≤ bs.length) :
    (write bs).field o w = ofBytesLE ((bs.drop o).take w) := by
  rw [DataFeed.Packet.field, write_drop_take hb h]

theorem headD_take_one (l : List UInt8) : (l.take 1).headD 0 = l.headD 0 := by
  cases l <;> rfl

theorem char_write (hb : bs.length ≤ 40) (h : o < bs.length) :
    (write bs).char o = Char.ofNat ((bs.drop o).headD 0).toNat := by
  rw [char, DataFeed.Packet.byte, ← headD_take_one, write_drop_take hb h, headD_take_one]

theorem string_write (hb : bs.length ≤ 40) (h : o + w ≤ bs.length) :
    (write bs).string o w = ⟨((bs.drop o).take w).map fun b => Char.ofNat b.toNat⟩ := by
  rw [string, write_drop_take hb h]

/-- The `MessageID` a struct's header names is the packet's. -/
theorem uid_write {size sequence : Nat} {id : Char} (hid : id.toNat < 256) {payload : List UInt8}
    (hb : payload.length ≤ 32) : (write (frameHeader size id sequence ++ payload)).uid = id := by
  rw [DataFeed.Packet.uid, ← char, char_write (by simp; omega) (by simp; omega)]
  simp [frameHeader, char_charByte hid]

end Packet

/-! ## §2 Requests: what the client writes and the server reads -/

namespace Request

/-- The `MessageID` of each request struct. The bare `Header` stands for every other
`MessageID`; a client builds no such struct. -/
def messageId? : Request → Option Char
  | .loginRequest .. => some 'L'
  | .logoutRequest => some 'O'
  | .orderRequest .. => some 'N'
  | .cancelRequest _ => some 'C'
  | .replaceRequest .. => some 'R'
  | .purgeRequest => some 'P'
  | .header => none

/-- `sizeof` of each request struct. -/
def sizeof : Request → Nat
  | .loginRequest .. => 24
  | .orderRequest .. => 21
  | .cancelRequest _ => 16
  | .replaceRequest .. => 29
  | .logoutRequest | .purgeRequest | .header => 8

/-- The packed fields after the header: `Username` and `Password`; `Price`, `Quantity` and
`Side`; `OrderID`; `OrderID`, `Price`, `Quantity` and `Side`. -/
def payload : Request → List UInt8
  | .loginRequest username password => charBytes username ++ charBytes password
  | .orderRequest price quantity side =>
    toBytesLE 8 price ++ toBytesLE 4 quantity ++ [charByte side]
  | .cancelRequest orderId => toBytesLE 8 orderId
  | .replaceRequest orderId price quantity side =>
    toBytesLE 8 orderId ++ toBytesLE 8 price ++ toBytesLE 4 quantity ++ [charByte side]
  | .logoutRequest | .purgeRequest | .header => []

/-- `Client::send<T>(args...)` for the request struct `T` with sequence number `sequence`. -/
def encode (r : Request) (sequence : Nat) : Option Packet :=
  r.messageId?.map fun id => .write (frameHeader r.sizeof id sequence ++ r.payload)

end Request

/-- `Connection::read_buffer`'s `switch` on `Header::uid` and the `reinterpret_cast` of each case:
`username` at 8 and `password` at 12; `price`, `quantity` and `side` at 8, 16 and 20;
`order_id` at 8; `order_id`, `price`, `quantity` and `side` at 8, 16, 24 and 28. Every other
`MessageID` is handled as a bare `Header`. -/
def Packet.request (p : Packet) : Request :=
  match p.uid with
  | 'L' => .loginRequest (p.string 8 4) (p.string 12 12)
  | 'O' => .logoutRequest
  | 'N' => .orderRequest (p.field 8 8) (p.field 16 4) (p.char 20)
  | 'C' => .cancelRequest (p.field 8 8)
  | 'R' => .replaceRequest (p.field 8 8) (p.field 16 8) (p.field 24 4) (p.char 28)
  | 'P' => .purgeRequest
  | _ => .header

/-- `read_buffer` reads the `MessageID` byte and, before byte 8, nothing else: not the length
field, the padding byte or the sequence number. -/
theorem Packet.request_congr {p q : Packet} (h2 : p.byte 2 = q.byte 2)
    (h8 : p.bytes.drop 8 = q.bytes.drop 8) : p.request = q.request := by
  have hd : ∀ o, 8 ≤ o → p.bytes.drop o = q.bytes.drop o := fun o ho => by
    obtain ⟨k, rfl⟩ := Nat.exists_eq_add_of_le ho
    rw [← List.drop_drop, h8, List.drop_drop]
  have hu : p.uid = q.uid := by rw [DataFeed.Packet.uid, h2]; rfl
  unfold Packet.request
  rw [hu]
  simp (disch := omega) only [DataFeed.Packet.field, Packet.char, Packet.string,
    DataFeed.Packet.byte, hd]

/-- The packet a client builds for a request whose fields fit is cast back to the request. -/
theorem request_encode {r : Request} (h : r.Fits) (sequence : Nat) :
    ∃ p, r.encode sequence = some p ∧ p.request = r := by
  cases r with
  | header => exact h.elim
  | loginRequest u pw =>
    obtain ⟨hu, hpw, hc⟩ := h
    refine ⟨_, rfl, ?_⟩
    rw [Packet.request, Packet.uid_write (by decide) (by simp [Request.payload, hu, hpw])]
    simp [Packet.string_write, Request.payload, List.drop_append_eq_append_drop,
      List.take_append_eq_append_take, List.drop_eq_nil_of_le, List.take_of_length_le, hu, hpw,
      string_charBytes fun c h => hc c (List.mem_append_left _ h),
      string_charBytes fun c h => hc c (List.mem_append_right _ h)]
  | orderRequest price quantity side =>
    obtain ⟨hp, hq, hs⟩ := h
    refine ⟨_, rfl, ?_⟩
    rw [Packet.request, Packet.uid_write (by decide) (by simp [Request.payload])]
    simp [Packet.field_write, Packet.char_write, Request.payload, List.drop_append_eq_append_drop,
      List.take_append_eq_append_take, List.drop_eq_nil_of_le, List.take_of_length_le,
      ofBytesLE_toBytesLE_of_lt hp, ofBytesLE_toBytesLE_of_lt hq, char_charByte hs]
  | cancelRequest orderId =>
    refine ⟨_, rfl, ?_⟩
    rw [Packet.request, Packet.uid_write (by decide) (by simp [Request.payload])]
    simp [Packet.field_write, Request.payload, List.drop_append_eq_append_drop,
      List.take_append_eq_append_take, List.drop_eq_nil_of_le, List.take_of_length_le,
      ofBytesLE_toBytesLE_of_lt (show orderId < 256 ^ 8 from h)]
  | replaceRequest orderId price quantity side =>
    obtain ⟨ho, hp, hq, hs⟩ := h
    refine ⟨_, rfl, ?_⟩
    rw [Packet.request, Packet.uid_write (by decide) (by simp [Request.payload])]
    simp [Packet.field_write, Packet.char_write, Request.payload, List.drop_append_eq_append_drop,
      List.take_append_eq_append_take, List.drop_eq_nil_of_le, List.take_of_length_le,
      ofBytesLE_toBytesLE_of_lt ho, ofBytesLE_toBytesLE_of_lt hp, ofBytesLE_toBytesLE_of_lt hq,
      char_charByte hs]
  | logoutRequest | purgeRequest =>
    refine ⟨_, rfl, ?_⟩
    rw [Packet.request, Packet.uid_write (by decide) (by simp [Request.payload])]
    rfl

/-- **The server reads what a client sends.** For every request whose fields fit their C++
types and every sequence number, `Client::send` builds a packet, and `Connection::read_buffer`
casts to that request every packet that agrees with it on the `MessageID` byte and from byte 8 on,
whatever its length field, padding byte and sequence number. -/
theorem server_reads_client_packets {r : Request} (h : r.Fits) (sequence : Nat) :
    ∃ p, r.encode sequence = some p ∧
      ∀ q : Packet, q.byte 2 = p.byte 2 → q.bytes.drop 8 = p.bytes.drop 8 → q.request = r := by
  obtain ⟨p, hp, hr⟩ := request_encode h sequence
  exact ⟨p, hp, fun q h2 h8 => (Packet.request_congr h2.symm h8.symm).symm.trans hr⟩

theorem login_packet_read :
    (Request.loginRequest "AAAA" "password1234").Fits ∧
      ∃ p, (Request.loginRequest "AAAA" "password1234").encode 0 = some p ∧
        ∀ q : Packet, q.byte 2 = p.byte 2 → q.bytes.drop 8 = p.bytes.drop 8 →
          q.request = .loginRequest "AAAA" "password1234" :=
  ⟨by decide, server_reads_client_packets (by decide) 0⟩

/-! ## §3 Responses: what the server writes and the client reads -/

/-- The `char` of each `LoginResponseStatus`. -/
def LoginResponseStatus.toWire : LoginResponseStatus → Char
  | .accepted => 'A'
  | .notAuthorized => 'N'
  | .alreadyAuthorized => 'C'
  | .sessionInUse => 'B'

/-- The `case`s of `Client::handle(LoginResponse)`'s `switch`; another value matches none. -/
def LoginResponseStatus.ofWire? : Char → Option LoginResponseStatus
  | 'A' => some .accepted
  | 'N' => some .notAuthorized
  | 'C' => some .alreadyAuthorized
  | 'B' => some .sessionInUse
  | _ => none

/-- The `char` of each `LogoutReason`. -/
def LogoutReason.toWire : LogoutReason → Char
  | .userRequested => 'U'
  | .endOfDay => 'E'
  | .administrative => 'A'
  | .protocolViolation => '!'

/-- The `char` of `Accepted` and `Rejected` in each of the four status enumerations. -/
def Status.toWire : Status → Char
  | .accepted => 'A'
  | .rejected => 'R'

/-- A status as the client's handlers read it: `status == Rejected`. -/
def Status.ofWire (c : Char) : Status := if c = 'R' then .rejected else .accepted

namespace Response

/-- `sizeof` of each response struct. -/
def sizeof : Response → Nat
  | .loginResponse _ | .logoutResponse _ | .purgeResponse _ => 9
  | .orderResponse .. | .cancelResponse .. => 17
  | .replaceResponse .. => 25
  | .tradeResponse .. => 33

/-- The packed fields after the header; a `TradeResponse` holds `order_id`, `price`, `quantity`,
`leaves_quantity` and `side` in that order. -/
def payload : Response → List UInt8
  | .loginResponse status => [charByte status.toWire]
  | .logoutResponse reason => [charByte reason.toWire]
  | .orderResponse orderId status | .cancelResponse orderId status =>
    toBytesLE 8 orderId ++ [charByte status.toWire]
  | .replaceResponse canceled newOrderId status =>
    toBytesLE 8 canceled ++ toBytesLE 8 newOrderId ++ [charByte status.toWire]
  | .purgeResponse status => [charByte status.toWire]
  | .tradeResponse orderId price quantity leavesQuantity side =>
    toBytesLE 8 orderId ++ toBytesLE 8 price ++ toBytesLE 4 quantity ++ toBytesLE 4 leavesQuantity ++
      [charByte side]

/-- The fields fit their C++ types: `OrderID` and `Price` in 8 bytes, `Quantity` in 4, a side in
one `char`. -/
def Fits : Response → Prop
  | .orderResponse orderId _ | .cancelResponse orderId _ => orderId < 256 ^ 8
  | .replaceResponse canceled newOrderId _ => canceled < 256 ^ 8 ∧ newOrderId < 256 ^ 8
  | .tradeResponse orderId price quantity leavesQuantity side =>
    orderId < 256 ^ 8 ∧ price < 256 ^ 8 ∧ quantity < 256 ^ 4 ∧ leavesQuantity < 256 ^ 4 ∧
      side.toNat < 256
  | .loginResponse _ | .logoutResponse _ | .purgeResponse _ => True

instance : DecidablePred Fits
  | .orderResponse .. | .cancelResponse .. => inferInstanceAs (Decidable (_ < _))
  | .replaceResponse .. => inferInstanceAs (Decidable (_ ∧ _))
  | .tradeResponse .. => inferInstanceAs (Decidable (_ ∧ _ ∧ _ ∧ _ ∧ _))
  | .loginResponse _ | .logoutResponse _ | .purgeResponse _ => inferInstanceAs (Decidable True)

end Response

/-- `Connection::send<T>(args...)`: the frame's struct, under its sequence number, in a zeroed
packet. -/
def Frame.encode (f : Frame) : Packet :=
  .write (frameHeader f.response.sizeof f.response.messageId f.sequence ++ f.response.payload)

/-- A status the server writes reads back as that status. -/
@[simp] theorem Status.ofWire_charByte (st : Status) :
    Status.ofWire (Char.ofNat (charByte st.toWire).toNat) = st := by
  cases st <;> rfl

@[simp] theorem LoginResponseStatus.ofWire?_charByte (st : LoginResponseStatus) :
    LoginResponseStatus.ofWire? (Char.ofNat (charByte st.toWire).toNat) = some st := by
  cases st <;> rfl

theorem Response.messageId_lt (r : Response) : r.messageId.toNat < 256 := by
  cases r <;> simp only [Response.messageId] <;> decide

theorem Response.length_payload_le (r : Response) : r.payload.length ≤ 32 := by
  cases r <;> simp [Response.payload]

end Messages

namespace Client

open Messages

/-- `Client::read_buffer`'s completion handler on one packet: the `switch` on `Header::uid`, the
`reinterpret_cast` of each case at the offsets of its struct, and the handler. `handle(Header)`,
the `default`, throws: `none`. `handle(LogoutResponse)` reads no field of its message. -/
def readPacket (c : Client) (p : Packet) : Option Client :=
  match p.uid with
  | 'l' => some (match LoginResponseStatus.ofWire? (p.char 8) with
      | some status => c.handleLoginResponse status
      | none => c)
  | 'o' => some (c.handleLogoutResponse .userRequested)
  | 'n' => some (c.handleOrderResponse (p.field 8 8) (Status.ofWire (p.char 16)))
  | 'c' => some (c.handleCancelResponse (p.field 8 8) (Status.ofWire (p.char 16)))
  | 'r' => some (c.handleReplaceResponse (p.field 8 8) (p.field 16 8) (Status.ofWire (p.char 24)))
  | 'p' => some (c.handlePurgeResponse (Status.ofWire (p.char 8)))
  | 't' => some (c.handleTradeResponse (p.field 8 8) (p.field 16 8) (p.field 24 4) (p.field 28 4)
      (p.char 32))
  | _ => none

/-- The read loop on a queue of packets, in order, stopping at the first that throws. -/
def readAll (c : Client) : List Packet → Option Client
  | [] => some c
  | p :: ps => (c.readPacket p).bind fun c' => c'.readAll ps

/-- The packet the server builds for a frame whose fields fit is handled as the frame. -/
theorem readPacket_encode (c : Client) {f : Frame} (h : f.response.Fits) :
    c.readPacket f.encode = some (c.handle f.response) := by
  obtain ⟨sequence, r⟩ := f
  rw [readPacket, Frame.encode, Packet.uid_write r.messageId_lt r.length_payload_le]
  cases r with
  | loginResponse st => simp [Packet.char_write, Response.payload, Response.messageId, handle]
  | logoutResponse reason => rfl
  | purgeResponse st => simp [Packet.char_write, Response.payload, Response.messageId, handle]
  | orderResponse orderId st | cancelResponse orderId st =>
    simp [Packet.field_write, Packet.char_write, Response.payload, Response.messageId,
      List.drop_append_eq_append_drop, List.take_append_eq_append_take, List.drop_eq_nil_of_le,
      List.take_of_length_le, ofBytesLE_toBytesLE_of_lt (show orderId < 256 ^ 8 from h), handle]
  | replaceResponse canceled newOrderId st =>
    obtain ⟨hc, hn⟩ := h
    simp [Packet.field_write, Packet.char_write, Response.payload, Response.messageId,
      List.drop_append_eq_append_drop, List.take_append_eq_append_take, List.drop_eq_nil_of_le,
      List.take_of_length_le, ofBytesLE_toBytesLE_of_lt hc, ofBytesLE_toBytesLE_of_lt hn, handle]
  | tradeResponse orderId price quantity leavesQuantity side =>
    obtain ⟨ho, hp, hq, hl, hs⟩ := h
    simp [Packet.field_write, Packet.char_write, Response.payload, Response.messageId,
      List.drop_append_eq_append_drop, List.take_append_eq_append_take, List.drop_eq_nil_of_le,
      List.take_of_length_le, ofBytesLE_toBytesLE_of_lt ho, ofBytesLE_toBytesLE_of_lt hp,
      ofBytesLE_toBytesLE_of_lt hq, ofBytesLE_toBytesLE_of_lt hl, char_charByte hs, handle]

/-- **The client reads what the server sends.** A client whose read loop takes the packets
`Connection::send` built for a queue of frames, in order, throws on none of them and ends as the
client that handled the frames, whenever every frame's fields fit their C++ types. -/
theorem client_reads_server_packets (c : Client) {fs : List Frame}
    (h : ∀ f ∈ fs, f.response.Fits) : c.readAll (fs.map Frame.encode) = some (c.receive fs) := by
  induction fs generalizing c with
  | nil => rfl
  | cons f fs ih =>
    rw [List.map_cons, readAll, readPacket_encode c (h f (List.mem_cons_self f fs)), Option.some_bind,
      ih _ fun g hg => h g (List.mem_cons_of_mem f hg)]
    rfl

end Client

end CboeEmulator.OrderEntry

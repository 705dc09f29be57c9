import CboeEmulator.OrderEntry.Messages
import CboeEmulator.DataFeed.Messages

/-!
# The Write Pumps

`Connection`, `Client` and `DataFeed::Sender` write their packets the same way. `send<T>`
appends a packet to `output_buffer`, stamps it with `sequence++`, and starts a write with
`write_buffer()` (`send_message()` in the sender) when `++output_buffer_size == 1`. The
completion handler of a successful write pops the front packet and starts the next write if
`--output_buffer_size` is not 0. Each write sends `output_buffer.front()`.

`Pump` is that write side, with the socket's view of it: the packets handed to `async_write`, in
order, and the number of writes started and not yet completed. A run interleaves sends and
completions in any order.

While fewer than 2^32 packets wait, the pump is exactly-once and in order
(`write_pump_exactly_once_in_order`). `output_buffer_size` counts the queue, and one write is
outstanding exactly when the queue is not empty. The packets handed to the socket, followed by
the queue without its front, are the packets sent, numbered from the first sequence number
modulo 2^32. `output_buffer_size` is a `uint32_t`. After 2^32 + 1 sends with no completion it
reads 1 again, so a second write of the same front packet starts
(`write_pump_double_write_after_wrap`).

## Representation

- A packet is its sequence number (`SequenceNumber`, `uint32_t`, as `BitVec 32`) and the rest of
  its fields.
- A completion is the successful completion of the oldest outstanding write. The error paths
  (`Connection` prints and returns, `Client` and `Sender` throw) are left out.
- `front()` and `pop_front()` of an empty `std::deque` are undefined; a step that would call one
  is `none`, as is a completion with no write outstanding.

## Main definitions

- `Pump`, `Pump.send`, `Pump.complete`, `Pump.run`: the write side and its steps;
- `Connection.outputPump`, `Client.outputPump`, `Sender.outputPump`: the three instances, with
  their first sequence numbers.

## Main results

- `Pump.Inv.send`, `Pump.Inv.complete`: one step keeps the pump's invariant;
- `write_pump_exactly_once_in_order`: every run that keeps fewer than 2^32 packets queued;
- `Pump.run_replicate_send`: `n` sends and no completion;
- `write_pump_double_write_after_wrap`: a connection's double write after 2^32 + 1 sends.
-/

namespace CboeEmulator

/-- What happens on a write side: a `send<T>` with the packet's fields, or the successful
completion of the oldest outstanding write. -/
inductive PumpEvent (β : Type) where
  /-- `send<T>(args...)` -/
  | send (payload : β)
  /-- the completion handler of a successful `async_write` -/
  | complete
  deriving DecidableEq, Repr

/-- The write side of a connection, a client or a feed sender, with the socket's view of it. -/
structure Pump (β : Type) where
  /-- `output_buffer`: the packets not yet popped, the front one being written -/
  outputBuffer : List (BitVec 32 × β)
  /-- `output_buffer_size` -/
  outputBufferSize : BitVec 32
  /-- `sequence`: the number of the next packet -/
  sequence : BitVec 32
  /-- the packets handed to `async_write`, in the order the writes started -/
  written : List (BitVec 32 × β)
  /-- the writes started and not yet completed -/
  outstanding : Nat
  deriving DecidableEq, Repr

namespace Pump

variable {β : Type}

/-- A write side as constructed, numbering its packets from `sequence`. -/
def init (sequence : BitVec 32) : Pump β := ⟨[], 0, sequence, [], 0⟩

/-- `write_buffer()`: `async_write` of `output_buffer.front()`. -/
def writeBuffer (p : Pump β) : Option (Pump β) :=
  match p.outputBuffer with
  | [] => none
  | x :: _ => some { p with written := p.written ++ [x], outstanding := p.outstanding + 1 }

/-- `send<T>(args...)`: append the packet stamped `sequence++`, then write if
`++output_buffer_size == 1`. -/
def send (p : Pump β) (payload : β) : Option (Pump β) :=
  let q := { p with outputBuffer := p.outputBuffer ++ [(p.sequence, payload)],
                    sequence := p.sequence + 1, outputBufferSize := p.outputBufferSize + 1 }
  if q.outputBufferSize = 1 then q.writeBuffer else some q

/-- The completion handler of a successful write: `pop_front()`, then write again if
`--output_buffer_size` is not 0. -/
def complete (p : Pump β) : Option (Pump β) :=
  match p.outstanding, p.outputBuffer with
  | 0, _ => none
  | _, [] => none
  | n + 1, _ :: rest =>
    let q := { p with outputBuffer := rest, outputBufferSize := p.outputBufferSize - 1,
                      outstanding := n }
    if q.outputBufferSize ≠ 0 then q.writeBuffer else some q

/-- One event. -/
def step (p : Pump β) : PumpEvent β → Option (Pump β)
  | .send payload => p.send payload
  | .complete => p.complete

/-- Events one after another. -/
def run (p : Pump β) (evs : List (PumpEvent β)) : Option (Pump β) := evs.foldlM step p

/-- The payloads of the sends among `evs`, in order. -/
def sends : List (PumpEvent β) → List β
  | [] => []
  | .send payload :: evs => payload :: sends evs
  | .complete :: evs => sends evs

/-- Payloads stamped with consecutive sequence numbers from `s`, modulo 2^32. -/
def numbered (s : BitVec 32) : List β → List (BitVec 32 × β)
  | [] => []
  | b :: bs => (s, b) :: numbered (s + 1) bs

end Pump

/-- `Connection`'s write side: frames numbered from `sequence = 0`. -/
def OrderEntry.Connection.outputPump : Pump OrderEntry.Messages.Response := Pump.init 0

/-- `Client`'s write side: requests numbered from `sequence = 0`. -/
def OrderEntry.Client.outputPump : Pump OrderEntry.Messages.Request := Pump.init 0

/-- `DataFeed::Sender`: messages and their times, numbered from `sequence = 1`. -/
def DataFeed.Sender.outputPump : Pump (DataFeed.Messages.Message × Nat) := Pump.init 1

namespace Pump

variable {β : Type}

/-! ## §2 Equations -/

section Equations

variable {p : Pump β} {s : BitVec 32} {bs : List β}

@[simp] theorem sends_append (evs evs' : List (PumpEvent β)) :
    sends (evs ++ evs') = sends evs ++ sends evs' := by
  induction evs with
  | nil => rfl
  | cons ev evs ih => cases ev <;> simp [sends, ih]

theorem ofNat_succ (s : BitVec 32) (n : Nat) :
    s + 1 + BitVec.ofNat 32 n = s + BitVec.ofNat 32 (n + 1) := by
  apply BitVec.eq_of_toNat_eq
  simp [BitVec.toNat_add]
  omega

theorem add_ofNat_add_one (s : BitVec 32) (n : Nat) :
    s + BitVec.ofNat 32 n + 1 = s + BitVec.ofNat 32 (n + 1) := by
  rw [BitVec.add_assoc, BitVec.add_comm (BitVec.ofNat 32 n), ← BitVec.add_assoc, ofNat_succ]

theorem numbered_append (s : BitVec 32) (bs : List β) (b : β) :
    numbered s (bs ++ [b]) = numbered s bs ++ [(s + BitVec.ofNat 32 bs.length, b)] := by
  induction bs generalizing s with
  | nil => simp [numbered]
  | cons b' bs ih =>
    rw [List.cons_append, numbered, numbered, ih, List.length_cons, ofNat_succ, List.cons_append]

@[simp] theorem length_numbered (s : BitVec 32) (bs : List β) : (numbered s bs).length = bs.length := by
  induction bs generalizing s with
  | nil => rfl
  | cons b bs ih => simp [numbered, ih]

/-- The payloads of `numbered` are the payloads given. -/
theorem map_snd_numbered (s : BitVec 32) (bs : List β) : (numbered s bs).map Prod.snd = bs := by
  induction bs generalizing s with
  | nil => rfl
  | cons b bs ih => simp [numbered, ih]

/-- The `i`-th packet of `numbered s` carries `s + i`. -/
theorem map_fst_numbered (s : BitVec 32) (bs : List β) :
    (numbered s bs).map Prod.fst = (List.range bs.length).map (s + BitVec.ofNat 32 ·) := by
  induction bs generalizing s with
  | nil => rfl
  | cons b bs ih =>
    simp only [numbered, List.map_cons, ih, List.length_cons, List.range_succ_eq_map,
      List.map_map]
    congr 1
    · simp
    · exact List.map_congr_left fun i _ => ofNat_succ s i

theorem run_cons (ev : PumpEvent β) (evs : List (PumpEvent β)) :
    p.run (ev :: evs) = p.step ev >>= fun q => q.run evs := rfl

theorem run_singleton (ev : PumpEvent β) : p.run [ev] = p.step ev := by
  cases h : p.step ev <;> simp [run, h]

theorem run_append (evs evs' : List (PumpEvent β)) :
    p.run (evs ++ evs') = p.run evs >>= fun q => q.run evs' :=
  List.foldlM_append _ _ _ _

end Equations

/-! ## §3 One step keeps the invariant -/

/-- The invariant of a write side that has sent the payloads `bs`, numbering them from `s`. -/
structure Inv (p : Pump β) (s : BitVec 32) (bs : List β) : Prop where
  /-- `output_buffer_size` counts the queue -/
  size : p.outputBufferSize.toNat = p.outputBuffer.length
  /-- one write is outstanding when the queue is not empty, none when it is -/
  outstanding : p.outstanding = min p.outputBuffer.length 1
  /-- the write outstanding is of the front packet -/
  front : ∀ x ∈ p.outputBuffer.head?, p.written.getLast? = some x
  /-- what was handed to the socket, then the queue behind the front, is what was sent -/
  handed : p.written ++ p.outputBuffer.drop 1 = numbered s bs
  /-- the next packet's number -/
  sequence : p.sequence = s + BitVec.ofNat 32 bs.length

section Invariant

variable {p q : Pump β} {s : BitVec 32} {bs : List β}

theorem Inv.init (s : BitVec 32) : Inv (init s : Pump β) s [] :=
  ⟨rfl, rfl, by simp [Pump.init], rfl, by simp [Pump.init]⟩

/-- A send that brings the counter to 1 starts a write of the front packet. -/
theorem send_of_eq_one {b : β} (h1 : p.outputBufferSize + 1 = 1) {x : BitVec 32 × β}
    (hx : (p.outputBuffer ++ [(p.sequence, b)]).head? = some x) :
    p.send b = some { p with
      outputBuffer := p.outputBuffer ++ [(p.sequence, b)], outputBufferSize := p.outputBufferSize + 1,
      sequence := p.sequence + 1, written := p.written ++ [x], outstanding := p.outstanding + 1 } := by
  unfold Pump.send writeBuffer
  dsimp only
  rw [if_pos h1]
  split <;> simp_all

/-- Any other send only queues its packet. -/
theorem send_of_ne_one {b : β} (h1 : p.outputBufferSize + 1 ≠ 1) :
    p.send b = some { p with
      outputBuffer := p.outputBuffer ++ [(p.sequence, b)], outputBufferSize := p.outputBufferSize + 1,
      sequence := p.sequence + 1 } := by
  unfold Pump.send
  dsimp only
  rw [if_neg h1]

/-- **A send keeps the invariant** while the queue stays below 2^32 packets; it never fails. -/
theorem Inv.send (h : Inv p s bs) (b : β) (hb : p.outputBuffer.length + 1 < 2 ^ 32) :
    ∃ q, p.send b = some q ∧ Inv q s (bs ++ [b]) := by
  have hsize : (p.outputBufferSize + 1).toNat = p.outputBuffer.length + 1 := by
    simp [BitVec.toNat_add, h.size]
    omega
  have hseq : p.sequence + 1 = s + BitVec.ofNat 32 (bs ++ [b]).length := by
    rw [h.sequence, List.length_append, List.length_singleton, add_ofNat_add_one]
  have hw := h.handed
  cases hq : p.outputBuffer with
  | nil =>
    have h1 : p.outputBufferSize + 1 = 1 := BitVec.eq_of_toNat_eq (by rw [hsize, hq]; rfl)
    have ho : p.outstanding = 0 := by simpa [hq] using h.outstanding
    rw [hq, List.drop_one, List.tail_nil, List.append_nil] at hw
    refine ⟨_, send_of_eq_one h1 (by rw [hq]; rfl), ?_⟩
    exact ⟨by rw [hsize, List.length_append, List.length_singleton], by simp [ho, hq], by simp [hq],
      by simp [hq, hw, h.sequence, numbered_append], hseq⟩
  | cons x xs =>
    rw [hq] at hsize hw
    have h1 : p.outputBufferSize + 1 ≠ 1 := fun h1 => by
      have := congrArg BitVec.toNat h1
      rw [hsize] at this
      simp at this
    refine ⟨_, send_of_ne_one h1, ?_⟩
    refine ⟨by rw [List.length_append, hq, hsize]; rfl, by simpa [hq] using h.outstanding,
      by simpa [hq] using h.front, ?_, hseq⟩
    rw [List.drop_one, List.tail_cons] at hw
    simp [hq, ← hw, h.sequence, numbered_append]

/-- Under the invariant a completion pops the front packet and, if a packet is left, starts its
write. -/
theorem Inv.complete_of_cons (h : Inv p s bs) {x : BitVec 32 × β} {rest : List (BitVec 32 × β)}
    (hq : p.outputBuffer = x :: rest) :
    p.complete = some { p with
      outputBuffer := rest, outputBufferSize := p.outputBufferSize - 1,
      written := p.written ++ rest.take 1, outstanding := min rest.length 1 } := by
  have hn : p.outstanding = 0 + 1 := by simpa [hq] using h.outstanding
  have hlt : rest.length + 1 < 2 ^ 32 := by
    have := p.outputBufferSize.isLt
    rw [h.size, hq, List.length_cons] at this
    exact this
  have hsize : (p.outputBufferSize - 1).toNat = rest.length := by
    simp [BitVec.toNat_sub, h.size, hq]
    omega
  unfold Pump.complete
  rw [hn, hq]
  cases rest with
  | nil =>
    have h0 : p.outputBufferSize - 1 = 0 := BitVec.eq_of_toNat_eq (by simpa using hsize)
    simp only [h0, ne_eq, not_true_eq_false, if_false, List.take_nil, List.append_nil]
    rfl
  | cons y ys =>
    have h0 : p.outputBufferSize - 1 ≠ 0 := fun h0 => by
      have := congrArg BitVec.toNat h0
      rw [hsize] at this
      simp at this
    simp only [h0, ne_eq, not_false_eq_true, if_true, writeBuffer]
    simp

/-- **A completion keeps the invariant.** -/
theorem Inv.complete (h : Inv p s bs) (hc : p.complete = some q) : Inv q s bs := by
  cases hq : p.outputBuffer with
  | nil =>
    have ho : p.outstanding = 0 := by simpa [hq] using h.outstanding
    simp [Pump.complete, ho] at hc
  | cons x rest =>
    rw [h.complete_of_cons hq, Option.some.injEq] at hc
    subst hc
    have hsize : (p.outputBufferSize - 1).toNat = rest.length := by
      have := p.outputBufferSize.isLt
      simp [BitVec.toNat_sub, h.size, hq] at this ⊢
      omega
    have hw := h.handed
    rw [hq, List.drop_one, List.tail_cons] at hw
    refine ⟨hsize, rfl, ?_, ?_, h.sequence⟩
    · cases rest <;> simp
    · rw [List.append_assoc, List.take_append_drop, hw]

/-- Under the invariant a completion is defined exactly when a write is outstanding. -/
theorem Inv.complete_isSome (h : Inv p s bs) : p.complete.isSome ↔ p.outstanding ≠ 0 := by
  cases hq : p.outputBuffer with
  | nil =>
    have ho : p.outstanding = 0 := by simpa [hq] using h.outstanding
    simp [Pump.complete, ho]
  | cons x rest => simp [h.complete_of_cons hq, h.outstanding, hq]

/-- A send is always defined: the queue it writes from has the packet just appended. -/
theorem send_isSome (p : Pump β) (b : β) : (p.send b).isSome := by
  unfold Pump.send writeBuffer
  dsimp only
  split
  · split
    · simp_all
    · rfl
  · rfl

/-- A send appends its packet to the queue. -/
theorem send_outputBuffer {b : β} (hs : p.send b = some q) :
    q.outputBuffer = p.outputBuffer ++ [(p.sequence, b)] := by
  unfold Pump.send writeBuffer at hs
  dsimp only at hs
  split at hs
  · split at hs
    · cases hs
    · cases hs; rfl
  · cases hs; rfl

/-- One event keeps the invariant, the queue staying below 2^32 packets. -/
theorem Inv.step (h : Inv p s bs) {ev : PumpEvent β} (hs : p.step ev = some q)
    (hq : q.outputBuffer.length < 2 ^ 32) : Inv q s (bs ++ sends [ev]) := by
  cases ev with
  | send b =>
    have hb : p.outputBuffer.length + 1 < 2 ^ 32 := by simpa [send_outputBuffer hs] using hq
    obtain ⟨q', hq', hi⟩ := h.send b hb
    rw [Pump.step, hq'] at hs
    cases hs
    simpa [sends] using hi
  | complete => simpa [sends] using h.complete hs

end Invariant

/-! ## §4 Runs -/

section Runs

variable {p q : Pump β} {s : BitVec 32} {bs : List β}

theorem sends_cons (ev : PumpEvent β) (evs : List (PumpEvent β)) :
    sends (ev :: evs) = sends [ev] ++ sends evs := by
  cases ev <;> rfl

/-- **A run keeps the invariant**, provided no state it passes through queues 2^32 packets. -/
theorem Inv.run (h : Inv p s bs) {evs : List (PumpEvent β)} (hr : p.run evs = some q)
    (hbound : ∀ evs₁ evs₂ q', evs = evs₁ ++ evs₂ → p.run evs₁ = some q' →
      q'.outputBuffer.length < 2 ^ 32) :
    Inv q s (bs ++ sends evs) := by
  induction evs generalizing p bs with
  | nil => cases hr; simpa [sends] using h
  | cons ev evs ih =>
    rw [run_cons] at hr
    cases hs : p.step ev with
    | none => rw [hs] at hr; cases hr
    | some p' =>
      rw [hs] at hr
      have hp' : p.run [ev] = some p' := by rw [run_cons, hs]; rfl
      have hi := h.step hs (hbound [ev] evs p' rfl hp')
      rw [sends_cons, ← List.append_assoc]
      exact ih hi hr fun e₁ e₂ q' he hq' =>
        hbound (ev :: e₁) e₂ q' (by rw [he]; rfl) (by rw [run_cons, hs]; exact hq')

/-- A completion pops the front packet. -/
theorem complete_outputBuffer (hc : p.complete = some q) : q.outputBuffer = p.outputBuffer.tail := by
  unfold Pump.complete writeBuffer at hc
  split at hc
  · cases hc
  · cases hc
  · rename_i hq
    dsimp only at hc
    split at hc
    · split at hc
      · cases hc
      · cases hc; simp [hq]
    · cases hc; simp [hq]

/-- A run queues no more packets than it sends. -/
theorem length_run_le {evs : List (PumpEvent β)} (hr : p.run evs = some q) :
    q.outputBuffer.length ≤ p.outputBuffer.length + (sends evs).length := by
  induction evs generalizing p with
  | nil => cases hr; simp
  | cons ev evs ih =>
    rw [run_cons] at hr
    cases hs : p.step ev with
    | none => rw [hs] at hr; cases hr
    | some p' =>
      rw [hs] at hr
      have := ih hr
      cases ev with
      | send b =>
        rw [send_outputBuffer (b := b) hs, List.length_append, List.length_singleton] at this
        simp only [sends, List.length_cons]
        omega
      | complete =>
        rw [complete_outputBuffer hs, List.length_tail] at this
        simp only [sends]
        omega

/-- A run of fewer than 2^32 sends never queues 2^32 packets. -/
theorem bound_of_sends {evs : List (PumpEvent β)} (h : (sends evs).length < 2 ^ 32) :
    ∀ evs₁ evs₂ q, evs = evs₁ ++ evs₂ → (init s).run evs₁ = some q →
      q.outputBuffer.length < 2 ^ 32 := by
  rintro evs₁ evs₂ q rfl hq
  have := length_run_le hq
  rw [sends_append, List.length_append] at h
  simp only [init, List.length_nil, Nat.zero_add] at this
  omega

/-- The packets handed to the socket are numbered consecutively. -/
theorem Inv.written_numbers (h : Inv p s bs) :
    p.written.map Prod.fst = (List.range p.written.length).map (s + BitVec.ofNat 32 ·) := by
  have hm := congrArg (fun l => (l.map Prod.fst).take p.written.length) h.handed
  simp only [List.map_append, map_fst_numbered] at hm
  rw [List.take_left' (List.length_map _ _), ← List.map_take, List.take_range] at hm
  rw [hm, Nat.min_eq_left]
  have := congrArg List.length h.handed
  simp only [List.length_append, length_numbered] at this
  omega

end Runs

end Pump

open Pump in
/-- **The write pumps are exactly-once and in order while fewer than 2^32 packets wait.** Take
any interleaving of sends and successful write completions, from a write side numbering its
packets from `s`, in which no state passed through queues 2^32 packets. In the state reached,
`output_buffer_size` counts the queue, and one write is outstanding when the queue is not empty
and none when it is. The packets handed to the socket, followed by the queue behind its front
packet, are the packets sent, in order. The `i`-th packet handed to the socket carries `s + i`
modulo 2^32. The next send is defined, and the next completion exactly when a write is
outstanding. -/
theorem write_pump_exactly_once_in_order {β : Type} (s : BitVec 32) {evs : List (PumpEvent β)}
    {p : Pump β} (hr : (init s).run evs = some p)
    (hbound : ∀ evs₁ evs₂ q, evs = evs₁ ++ evs₂ → (init s).run evs₁ = some q →
      q.outputBuffer.length < 2 ^ 32) :
    p.outputBufferSize.toNat = p.outputBuffer.length ∧
      p.outstanding = min p.outputBuffer.length 1 ∧
      p.written ++ p.outputBuffer.drop 1 = numbered s (sends evs) ∧
      p.written.map Prod.fst = (List.range p.written.length).map (s + BitVec.ofNat 32 ·) ∧
      (∀ b, (p.send b).isSome) ∧ (p.complete.isSome ↔ p.outstanding ≠ 0) := by
  have h : Inv p s (sends evs) := by simpa using (Inv.init s).run hr hbound
  exact ⟨h.size, h.outstanding, h.handed, h.written_numbers, p.send_isSome, h.complete_isSome⟩

theorem sender_pump_after_two_sends :
    ∃ p, DataFeed.Sender.outputPump.run
        [.send (.startOfSession, 0), .send (.addOrder 1 100 10 'S', 5), .complete] = some p ∧
      p.outputBufferSize.toNat = p.outputBuffer.length ∧
      p.outstanding = min p.outputBuffer.length 1 ∧
      p.written ++ p.outputBuffer.drop 1 = Pump.numbered 1 (Pump.sends
        [.send (.startOfSession, 0), .send (.addOrder 1 100 10 'S', 5), .complete]) ∧
      p.written.map Prod.fst = (List.range p.written.length).map (1 + BitVec.ofNat 32 ·) ∧
      (∀ b, (p.send b).isSome) ∧ (p.complete.isSome ↔ p.outstanding ≠ 0) := by
  refine ⟨_, rfl, ?_⟩
  exact write_pump_exactly_once_in_order 1 rfl (Pump.bound_of_sends (by decide))

/-! ## §5 After 2^32 sends -/

namespace Pump

variable {β : Type}

/-- **`n` sends and no completion.** The queue holds the `n` packets, `output_buffer_size` is
`n` modulo 2^32, and a write of the front packet started at each send that brought the counter
to 1: at the sends numbered `1`, `2^32 + 1`, `2 * 2^32 + 1`, … -/
theorem run_replicate_send (s : BitVec 32) (b : β) (n : Nat) :
    (init s).run (List.replicate n (.send b)) = some
      { outputBuffer := numbered s (List.replicate n b), outputBufferSize := BitVec.ofNat 32 n,
        sequence := s + BitVec.ofNat 32 n,
        written := List.replicate ((n + 2 ^ 32 - 1) / 2 ^ 32) (s, b),
        outstanding := (n + 2 ^ 32 - 1) / 2 ^ 32 } := by
  induction n with
  | zero => simp [init, numbered]; rfl
  | succ n ih =>
    rw [List.replicate_succ', run_append, ih]
    simp only [Option.bind_eq_bind, Option.some_bind, run_singleton, Pump.step]
    have hq : numbered s (List.replicate n b) ++ [(s + BitVec.ofNat 32 n, b)] =
        numbered s (List.replicate (n + 1) b) := by
      rw [List.replicate_succ', numbered_append, List.length_replicate]
    have hsize : BitVec.ofNat 32 n + 1 = BitVec.ofNat 32 (n + 1) := by
      rw [BitVec.ofNat_add]; rfl
    by_cases h1 : (n + 1) % 2 ^ 32 = 1
    · have hb : BitVec.ofNat 32 n + 1 = 1 := by
        rw [hsize]; exact BitVec.eq_of_toNat_eq (by simpa using h1)
      have hk : (n + 1 + 2 ^ 32 - 1) / 2 ^ 32 = (n + 2 ^ 32 - 1) / 2 ^ 32 + 1 := by omega
      rw [send_of_eq_one (x := (s, b))]
      · dsimp only
        rw [hq, hsize, add_ofNat_add_one, hk, ← List.replicate_succ']
      · exact hb
      · dsimp only; rw [hq]; rfl
    · have hb : BitVec.ofNat 32 n + 1 ≠ 1 := fun hb => h1 (by
        have := congrArg BitVec.toNat hb
        rw [hsize] at this
        simpa using this)
      have hk : (n + 1 + 2 ^ 32 - 1) / 2 ^ 32 = (n + 2 ^ 32 - 1) / 2 ^ 32 := by omega
      rw [send_of_ne_one]
      · dsimp only
        rw [hq, hsize, add_ofNat_add_one, hk]
      · exact hb

end Pump

/-- **After 2^32 + 1 sends with no completion the front frame is written twice.** A
`Connection` queues 2^32 + 1 frames while its first write has not completed. The `uint32_t`
`output_buffer_size` has wrapped to 1, so the last send starts a second write while the first is
outstanding, and both writes hand the socket the front frame, numbered 0. -/
theorem write_pump_double_write_after_wrap :
    ∃ p, OrderEntry.Connection.outputPump.run
        (List.replicate (2 ^ 32 + 1) (.send (.purgeResponse .accepted))) = some p ∧
      p.outputBuffer.length = 2 ^ 32 + 1 ∧ p.outputBufferSize = 1 ∧ p.outstanding = 2 ∧
      p.written = [(0, .purgeResponse .accepted), (0, .purgeResponse .accepted)] :=
  ⟨_, Pump.run_replicate_send 0 _ _, by simp only [Pump.length_numbered, List.length_replicate],
    rfl, rfl, rfl⟩

end CboeEmulator

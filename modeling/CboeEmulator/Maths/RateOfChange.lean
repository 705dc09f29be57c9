import Mathlib

/-!
# The Rate of Change over a Rolling Window

`Maths::RateOfChange` of `maths/rate_of_change.hpp`: a circular `history` of `n` observations,
an `index` to its head, and the last `rate_of_change`. `process(o)` writes `o` at `index`, moves
`index` on by one modulo `n`, and reads the slot it lands on; unless that slot holds 0 (the
window is still filling, or the old observation was 0), the rate becomes `(o - value) / value`.

Read from `index`, the history is the last `n` observations, oldest first, counted as 0 before
the first ones (`Window`). So the slot `process` reads holds the observation `n - 1` places
before the new one, and the rate is what `spec` says: each observation `o_t` is compared with
`o_{t - (n - 1)}`, and the last comparison with a nonzero base is the rate.

The observations are of any type with `0`, `-`, `/` and a decidable `=`; the class instantiates
them with `double`, whose rounding the model does not follow, and no statement here depends on
it.

## Main definitions

- `RateOfChange`: the structure, carrying the constructor's bounds on its length;
- `RateOfChange.new`, `process`, `reset`;
- `RateOfChange.spec`: each observation against the one `n - 1` places before it.

## Main results

- `RateOfChange.new_eq_error`, `RateOfChange.new_eq_ok`: the constructor's two errors and its
  initial state;
- `RateOfChange.Window.process`, `RateOfChange.Window.processAll`: one observation, then any
  number, keep the window;
- `rate_of_change_lags_window`: from the constructor, after any observations, the rate is
  `spec`, the index is their count modulo `n`, the history is the window, and `reset` returns
  the constructor's state.
-/

namespace CboeEmulator.Maths

/-! ## §1 The structure -/

/-- `LENGTH_MIN`: the inclusive minimal length of the history. -/
def lengthMin : Nat := 2

/-- `LENGTH_MAX`: the inclusive maximal length of the history,
`std::numeric_limits<uint16_t>::max() - 1`. -/
def lengthMax : Nat := 65535 - 1

/-- `RateOfChange<Observation, RoC>`, with one type for observations and rates. -/
@[ext] structure RateOfChange (α : Type) [Zero α] where
  /-- `history`: the last `n` observations, in a circular buffer -/
  history : List α
  /-- `index`: the slot the next observation is written to -/
  index : Nat
  /-- `rate_of_change` -/
  rateOfChange : α
  /-- the constructor checks the length against `LENGTH_MIN` and `LENGTH_MAX` -/
  length_mem : lengthMin ≤ history.length ∧ history.length ≤ lengthMax
  /-- `index` is a slot of `history` -/
  index_lt : index < history.length

namespace RateOfChange

variable {α : Type} [Zero α]

theorem length_pos (r : RateOfChange α) : 0 < r.history.length :=
  Nat.lt_of_lt_of_le (by decide) r.length_mem.1

/-- `RateOfChange(length)`: throw outside `[LENGTH_MIN, LENGTH_MAX]`, else a history of `length`
zeros, index 0 and rate 0. -/
def new (length : Nat) : Except String (RateOfChange α) :=
  if h₁ : length < lengthMin then .error ("length must be >= " ++ toString lengthMin)
  else if h₂ : length > lengthMax then .error ("length must be <= " ++ toString lengthMax)
  else .ok ⟨List.replicate length 0, 0, 0, by simp only [List.length_replicate]; omega,
    by simp only [List.length_replicate, lengthMin] at h₁ ⊢; omega⟩

/-- `get_length()`. -/
def getLength (r : RateOfChange α) : Nat := r.history.length

/-- `reset()`: fill the history with zeros; index and rate 0. -/
def reset (r : RateOfChange α) : RateOfChange α :=
  ⟨List.replicate r.history.length 0, 0, 0, by simpa using r.length_mem,
    by simpa using r.length_pos⟩

section Process

variable [Sub α] [Div α] [DecidableEq α]

/-- `process(observation)`: write it at `index`, step `index` on, read the slot it lands on, and
unless that is 0 set the rate to `(observation - value) / value`. -/
def process (r : RateOfChange α) (observation : α) : RateOfChange α :=
  let history := r.history.set r.index observation
  have hlen : history.length = r.history.length := List.length_set _ _ _
  let nextIndex := (r.index + 1) % history.length
  have hnext : nextIndex < history.length := Nat.mod_lt _ (hlen ▸ r.length_pos)
  let value := history[nextIndex]
  if value = 0 then ⟨history, nextIndex, r.rateOfChange, hlen ▸ r.length_mem, hnext⟩
  else ⟨history, nextIndex, (observation - value) / value, hlen ▸ r.length_mem, hnext⟩

/-- The observations one after another. -/
def processAll (r : RateOfChange α) (os : List α) : RateOfChange α := os.foldl process r

@[simp] theorem processAll_nil (r : RateOfChange α) : r.processAll [] = r := rfl

theorem processAll_append_singleton (r : RateOfChange α) (os : List α) (o : α) :
    r.processAll (os ++ [o]) = (r.processAll os).process o :=
  List.foldl_append _ _ _ _

end Process

theorem toString_lengthMin : "length must be >= " ++ toString lengthMin = "length must be >= 2" := rfl

theorem toString_lengthMax : "length must be <= " ++ toString lengthMax = "length must be <= 65534" :=
  rfl

/-- The constructor's two errors, each naming the bound it checks. -/
theorem new_eq_error {length : Nat} {e : String} :
    (new length : Except String (RateOfChange α)) = .error e ↔
      length < 2 ∧ e = "length must be >= 2" ∨
        2 ≤ length ∧ 65534 < length ∧ e = "length must be <= 65534" := by
  unfold new
  rw [toString_lengthMin, toString_lengthMax]
  split_ifs with h₁ h₂ <;> simp only [lengthMin, lengthMax] at *
  · simp [h₁, eq_comm]
  · simp [h₁, h₂, eq_comm]; omega
  · simp; omega

/-- Within the bounds the constructor returns a history of zeros, index 0 and rate 0. -/
theorem new_eq_ok {length : Nat} {r : RateOfChange α} :
    new length = .ok r ↔ r.history = List.replicate length 0 ∧ r.index = 0 ∧ r.rateOfChange = 0 := by
  constructor
  · intro h
    unfold new at h
    split_ifs at h
    cases h
    exact ⟨rfl, rfl, rfl⟩
  · rintro ⟨hh, hi, hr⟩
    have hb := r.length_mem
    rw [hh, List.length_replicate] at hb
    unfold new
    rw [dif_neg (Nat.not_lt.mpr hb.1), dif_neg (Nat.not_lt.mpr hb.2)]
    exact congrArg Except.ok (RateOfChange.ext hh.symm hi.symm hr.symm)

/-- `reset()` returns the state the constructor builds for the same length. -/
theorem new_getLength_reset (r : RateOfChange α) : new r.getLength = .ok r.reset :=
  new_eq_ok.mpr ⟨rfl, rfl, rfl⟩

/-! ## §2 What the rate is meant to be -/

section Spec

variable [Sub α] [Div α] [DecidableEq α]

/-- One comparison of an observation with its base: against 0 the rate stays. -/
def rateStep (rate : α) (ob : α × α) : α := if ob.2 = 0 then rate else (ob.1 - ob.2) / ob.2

/-- The rate of change over a window of `n`: each observation `o_t` is compared with
`o_{t - (n - 1)}`, which is 0 before the first `n - 1` observations, and the rate is the last
comparison with a nonzero base, 0 if there is none. -/
def spec (n : Nat) (os : List α) : α := (os.zip (List.replicate (n - 1) 0 ++ os)).foldl rateStep 0

example : spec 3 [1, 2, 4, 8] = (3 : Int) := by decide

theorem zip_append_singleton {β : Type} {l m : List β} (h : l.length < m.length) (a b : β) :
    (l ++ [a]).zip (m ++ [b]) = l.zip m ++ [(a, m[l.length])] := by
  induction l generalizing m with
  | nil => cases m with
    | nil => cases h
    | cons c m => rfl
  | cons x l ih => cases m with
    | nil => cases h
    | cons c m => simp [ih (Nat.lt_of_succ_lt_succ h)]

/-- One more observation adds one comparison, with the observation `n - 1` places before it. -/
theorem spec_append_singleton {n : Nat} (hn : 2 ≤ n) {os : List α} {o v : α}
    (hv : (List.replicate (n - 1) 0 ++ os)[os.length]? = some v) :
    spec n (os ++ [o]) = rateStep (spec n os) (o, v) := by
  have hlen : os.length < (List.replicate (n - 1) 0 ++ os).length := by simp; omega
  rw [List.getElem?_eq_getElem hlen, Option.some_inj] at hv
  rw [spec, spec, ← List.append_assoc, zip_append_singleton hlen, List.foldl_append, hv]
  rfl

end Spec

/-! ## §3 The window -/

/-- A step of `k`, with `0 < k < n`, from a slot `i` of `n` lands on another slot. -/
theorem add_mod_ne {i k n : Nat} (hi : i < n) (hk0 : 0 < k) (hk : k < n) : (i + k) % n ≠ i := by
  rcases Nat.lt_or_ge (i + k) n with h | h
  · rw [Nat.mod_eq_of_lt h]; omega
  · rw [Nat.mod_eq_sub_mod h, Nat.mod_eq_of_lt (by omega)]; omega

section Window

variable [Sub α] [Div α] [DecidableEq α] {r : RateOfChange α} {o : α}

@[simp] theorem process_history : (r.process o).history = r.history.set r.index o := by
  unfold process; dsimp only; split <;> rfl

@[simp] theorem process_index : (r.process o).index = (r.index + 1) % r.history.length := by
  unfold process; dsimp only; split <;> simp

/-- `process` compares the observation with the slot after `index`, read after the write. -/
theorem process_rateOfChange {v : α}
    (hv : (r.history.set r.index o)[(r.index + 1) % r.history.length]? = some v) :
    (r.process o).rateOfChange = rateStep r.rateOfChange (o, v) := by
  obtain ⟨hlt, hget⟩ := List.getElem?_eq_some_iff.mp hv
  unfold process rateStep
  simp only [List.length_set, hget]
  split <;> rfl

@[simp] theorem length_processAll (os : List α) :
    (r.processAll os).history.length = r.history.length := by
  induction os generalizing r with
  | nil => rfl
  | cons o os ih => exact ih.trans (by simp)

/-- The state after the observations `os`: read from `index`, the history is the last `n` of
them, oldest first and counted as 0 before the first, and the rate is `spec`. -/
structure Window (r : RateOfChange α) (os : List α) : Prop where
  index : r.index = os.length % r.history.length
  slots : ∀ j < r.history.length, r.history[(r.index + j) % r.history.length]? =
    (List.replicate r.history.length 0 ++ os)[os.length + j]?
  rate : r.rateOfChange = spec r.history.length os

/-- A history of zeros at index 0 with rate 0 is the window of no observation. -/
theorem Window.of_zeros (hh : r.history = List.replicate r.history.length 0) (hi : r.index = 0)
    (hr : r.rateOfChange = 0) : Window r [] where
  index := by rw [hi]; rfl
  slots j hj := by
    rw [hi, Nat.zero_add, Nat.mod_eq_of_lt hj, List.append_nil, List.length_nil, Nat.zero_add, ← hh]
  rate := hr

/-- **One observation keeps the window**: the slot `process` reads is the observation `n - 1`
places before the new one. -/
theorem Window.process (h : Window r os) (o : α) : Window (r.process o) (os ++ [o]) := by
  have h2 : 2 ≤ r.history.length := r.length_mem.1
  have hi := r.index_lt
  have hread : (r.history.set r.index o)[(r.index + 1) % r.history.length]? =
      (List.replicate (r.history.length - 1) 0 ++ os)[os.length]? := by
    rw [List.getElem?_set_ne (add_mod_ne hi Nat.one_pos (by omega)).symm, h.slots 1 (by omega)]
    obtain ⟨m, hm⟩ : ∃ m, r.history.length = m + 1 := ⟨_, (Nat.succ_pred_eq_of_pos (by omega)).symm⟩
    rw [hm, List.replicate_succ, List.cons_append, Nat.add_sub_cancel, List.getElem?_cons_succ]
  obtain ⟨v, hv⟩ : ∃ v, (List.replicate (r.history.length - 1) 0 ++ os)[os.length]? = some v :=
    ⟨_, List.getElem?_eq_getElem (by simp; omega)⟩
  refine ⟨?_, fun j hj => ?_, ?_⟩
  · rw [process_index, h.index, Nat.mod_add_mod, List.length_append, List.length_singleton,
      process_history, List.length_set]
  · simp only [process_history, process_index, List.length_set] at hj ⊢
    rw [Nat.mod_add_mod, List.length_append, List.length_singleton, ← List.append_assoc]
    by_cases hjn : j + 1 = r.history.length
    · -- the last slot of the window is the new observation
      have hlen : (List.replicate r.history.length 0 ++ os).length = os.length + 1 + j := by
        simp; omega
      rw [show r.index + 1 + j = r.index + r.history.length by omega, Nat.add_mod_right,
        Nat.mod_eq_of_lt hi, List.getElem?_set_self hi, ← hlen, List.getElem?_concat_length]
    · -- the others are the window's, one place on
      rw [List.getElem?_append_left (show os.length + 1 + j <
          (List.replicate r.history.length 0 ++ os).length by simp; omega),
        show r.index + 1 + j = r.index + (j + 1) by omega,
        List.getElem?_set_ne (add_mod_ne hi (Nat.succ_pos j) (by omega)).symm,
        h.slots (j + 1) (by omega), show os.length + 1 + j = os.length + (j + 1) by omega]
  · rw [process_rateOfChange (hread.trans hv), h.rate, process_history, List.length_set,
      spec_append_singleton h2 hv]

/-- **Any observations keep the window.** -/
theorem Window.processAll (h : Window r os) (os' : List α) :
    Window (r.processAll os') (os ++ os') := by
  induction os' generalizing r os with
  | nil => simpa using h
  | cons o os' ih =>
    have := ih (h.process o)
    rwa [List.append_assoc, List.singleton_append] at this

/-- The constructor's state is the window of no observation. -/
theorem Window.new {length : Nat} (hr : new length = .ok r) : Window r [] := by
  have hh := (new_eq_ok.mp hr).1
  exact .of_zeros (by rw [hh, List.length_replicate]) (new_eq_ok.mp hr).2.1 (new_eq_ok.mp hr).2.2

end Window

/-- **The rate of change compares each observation with the one `n - 1` places before it.**
From the constructor with a length `n` in bounds, after any observations `os`: the rate is
`spec n os`, the index is their count modulo `n`, read from the index the history is the last
`n` observations, oldest first and 0 before the first, and `reset` returns the constructor's
state. -/
theorem rate_of_change_lags_window [Sub α] [Div α] [DecidableEq α] {length : Nat}
    {r : RateOfChange α} (hr : new length = .ok r) (os : List α) :
    (r.processAll os).rateOfChange = spec length os ∧
      (r.processAll os).index = os.length % length ∧
      (∀ j < length, (r.processAll os).history[((r.processAll os).index + j) % length]? =
        (List.replicate length 0 ++ os)[os.length + j]?) ∧
      new length = .ok (r.processAll os).reset := by
  have hlen : r.history.length = length := by rw [(new_eq_ok.mp hr).1, List.length_replicate]
  obtain ⟨hi, hs, hrt⟩ := (Window.new hr).processAll os
  rw [List.nil_append, length_processAll, hlen] at hi hs hrt
  refine ⟨hrt, hi, hs, ?_⟩
  have := new_getLength_reset (r.processAll os)
  rwa [getLength, length_processAll, hlen] at this

theorem rate_of_change_after_four_observations :
    ∃ r : RateOfChange Int, new 3 = .ok r ∧
      ((r.processAll [1, 2, 4, 8]).rateOfChange = spec 3 [1, 2, 4, 8] ∧
        (r.processAll [1, 2, 4, 8]).index = [1, 2, 4, 8].length % 3 ∧
        (∀ j < 3, (r.processAll [1, 2, 4, 8]).history[((r.processAll [1, 2, 4, 8]).index + j) % 3]? =
          (List.replicate 3 0 ++ [1, 2, 4, 8])[[1, 2, 4, 8].length + j]?) ∧
        new 3 = .ok (r.processAll [1, 2, 4, 8]).reset) :=
  ⟨_, rfl, rate_of_change_lags_window (by rfl) [1, 2, 4, 8]⟩

end RateOfChange

end CboeEmulator.Maths

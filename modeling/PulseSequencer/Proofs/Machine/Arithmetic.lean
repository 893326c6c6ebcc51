import PulseSequencer.Program.Compile
import PulseSequencer.Proofs.Sequence.Accepted
import PulseSequencer.Proofs.Sequence.Entries
import PulseSequencer.Proofs.Configuration

/-!
# Numbers of a machine

A machine keeps times in 128 bits, the number of pulses on a line in 32 bits with a sign, and looks
things up in tables that end. `Machine` has the computations of this library once more, with every
such limit checked where it could be missed: a computation that misses one is trapped. To show that
none is missed is to show that a computation of `Machine` gives the result of its namesake, and that
the result is no trap.

* `Machine.add`, `Machine.mul`, `Machine.sub`, `Machine.tally`: arithmetic within limits.
* `Machine.interval`, `Machine.tickWord`: the ticks of an interval, and a tick as a word.
* `Result.Untrapped`, `Machine.Computes`: no limit is missed.
* `Timing.Reaches`: a timing for which the arithmetic on times has room.
* `Timing.Bounded`: the timing of a configuration, whose numbers have 64 bits.
-/

namespace PulseSequencer

namespace Result

variable {α β : Type}

/-- The result is not that of a computation that was trapped. -/
def Untrapped (r : Except Error α) : Prop := ∀ e, r = .error e → e.isTrap = false

/-- A value is no trap. -/
lemma untrapped_ok (a : α) : Untrapped (.ok a) := nofun

/-- An error other than a trap is no trap. -/
lemma untrapped_error {e : Error} (he : e.isTrap = false) :
    Untrapped (.error e : Except Error α) := by
  intro e' h
  cases h
  exact he

/-- A computation is not trapped if neither of its two steps is. -/
lemma untrapped_bind {x : Except Error α} {f : α → Except Error β} (hx : Untrapped x)
    (hf : ∀ a, x = .ok a → Untrapped (f a)) : Untrapped (x >>= f) := by
  cases x with
  | error e => exact fun e' h => hx e' (by cases h; rfl)
  | ok a => exact hf a rfl

/-- A computation whose value is changed is trapped as it was before. -/
lemma untrapped_map {x : Except Error α} {f : α → β} (hx : Untrapped x) : Untrapped (f <$> x) := by
  cases x with
  | error e => exact fun e' h => hx e' (by cases h; rfl)
  | ok a => exact untrapped_ok _

/-- A computation that depends on a condition is not trapped if no branch is. -/
lemma untrapped_ite {c : Prop} [Decidable c] {x y : Except Error α} (hx : Untrapped x)
    (hy : Untrapped y) : Untrapped (if c then x else y) := by
  by_cases hc : c
  · rw [if_pos hc]
    exact hx
  · rw [if_neg hc]
    exact hy

/-- A check that refuses without a trap. -/
lemma untrapped_unless {c : Prop} [Decidable c] {e : Error} {f : Unit → Except Error β}
    (he : e.isTrap = false) (hf : ¬c → Untrapped (f ())) :
    Untrapped (if c then throw e >>= f else f ()) := by
  by_cases hc : c
  · rw [if_pos hc]
    exact untrapped_error he
  · rw [if_neg hc]
    exact hf hc

/-- Computations in a row are not trapped if none of them is. -/
lemma untrapped_mapM {f : α → Except Error β} {xs : List α} (hf : ∀ x ∈ xs, Untrapped (f x)) :
    Untrapped (xs.mapM f) := by
  induction xs with
  | nil => exact untrapped_ok []
  | cons x xs ih =>
    obtain ⟨hx, hxs⟩ := List.forall_mem_cons.mp hf
    rw [List.mapM_cons]
    exact untrapped_bind hx fun _ _ => untrapped_bind (ih hxs) fun _ _ => untrapped_ok _

/-- Equal computations give equal results in a row. -/
lemma mapM_congr {ε : Type} {f g : α → Except ε β} {xs : List α} (h : ∀ x ∈ xs, f x = g x) :
    xs.mapM f = xs.mapM g := by
  induction xs with
  | nil => rfl
  | cons x xs ih =>
    obtain ⟨hx, hxs⟩ := List.forall_mem_cons.mp h
    rw [List.mapM_cons, List.mapM_cons, hx, ih hxs]

/-- A computation over a list that has an answer to every element. -/
lemma mapM_eq_ok {ε : Type} {f : α → Except ε β} {g : α → β} {xs : List α}
    (h : ∀ x ∈ xs, f x = .ok (g x)) : xs.mapM f = .ok (xs.map g) := by
  rw [mapM_congr h]
  exact List.mapM_pure

/-- A computation over the elements of a list with their places. -/
lemma mapM_zipIdx_eq_ok {ε : Type} {f : α × Nat → Except ε β} {g : α → β} {xs : List α}
    (h : ∀ x i, i < xs.length → f (x, i) = .ok (g x)) : xs.zipIdx.mapM f = .ok (xs.map g) := by
  have hplaces : xs.zipIdx.mapM f = .ok (xs.zipIdx.map (g ∘ Prod.fst)) :=
    mapM_eq_ok fun p hp => h p.1 p.2 (by simpa using List.snd_lt_of_mem_zipIdx hp)
  rw [hplaces, ← List.map_map, List.zipIdx_map_fst]

/-- Whether something holds of one of some values may be computed for each of them in turn. -/
lemma anyM_eq_ok {ε : Type} {f : α → Except ε Bool} {g : α → Bool} {xs : List α}
    (h : ∀ x ∈ xs, f x = .ok (g x)) : xs.anyM f = .ok (xs.any g) := by
  induction xs with
  | nil => rfl
  | cons x xs ih =>
    obtain ⟨hx, hxs⟩ := List.forall_mem_cons.mp h
    rw [List.anyM, hx, List.any_cons]
    cases hg : g x with
    | true => rfl
    | false => exact ih hxs

end Result

/-- There is a resolution, and the time `nanos` rounded up to it has 128 bits. -/
structure Timing.Reaches (timing : Timing) (nanos : Nat) : Prop where
  resolution_ne : timing.resolution ≠ 0
  add_lt_span : nanos + timing.resolution < Timing.span

namespace Timing.Reaches

variable {timing : Timing} {nanos : Nat} (h : timing.Reaches nanos)
include h

/-- What is reached has 128 bits. -/
lemma lt_span : nanos < span := (Nat.le_add_right _ _).trans_lt h.add_lt_span

/-- Every earlier time is reached as well. -/
lemma mono {earlier : Nat} (hle : earlier ≤ nanos) : timing.Reaches earlier :=
  ⟨h.resolution_ne, (Nat.add_le_add_right hle _).trans_lt h.add_lt_span⟩

/-- The time at which a tick begins has 128 bits. -/
lemma ticks_mul_lt : timing.ticks nanos * timing.resolution < span :=
  (Nat.div_mul_le_self nanos timing.resolution).trans_lt h.lt_span

/-- So has the time at which the last of the ticks that cover a time ends. -/
lemma cover_mul_lt : timing.cover nanos * timing.resolution < span := by
  refine (Nat.div_mul_le_self _ timing.resolution).trans_lt ?_
  have := h.add_lt_span
  omega

/-- The tick that a time falls into is told, -/
lemma floorTicks_eq (any : Nat) : timing.floorTicks any = .ok (timing.ticks any) :=
  if_neg h.resolution_ne

/-- and the ticks that cover it. -/
lemma ceilTicks_eq : timing.ceilTicks nanos = .ok (timing.cover nanos) :=
  Timing.ceilTicks_eq_ok.mpr ⟨h.resolution_ne, h.add_lt_span, rfl⟩

end Timing.Reaches

/-- The ticks that cover a time are told only if the time is reached. -/
lemma Timing.reaches_of_ceilTicks {timing : Timing} {nanos n : Nat}
    (h : timing.ceilTicks nanos = .ok n) : timing.Reaches nanos :=
  have hceil := Timing.ceilTicks_eq_ok.mp h
  ⟨hceil.1, hceil.2.1⟩

/-- There is a resolution, and it has 64 bits, as has the length of the longest sequence. -/
structure Timing.Bounded (timing : Timing) : Prop where
  resolution_ne : timing.resolution ≠ 0
  resolution_lt : timing.resolution < 2 ^ 64
  maxLength_lt : timing.maxLength < 2 ^ 64

/-- The timing of an accepted configuration is bounded. -/
lemma Timing.bounded_of_ofConfiguration {config : Configuration} {registry : Registry}
    (h : Registry.ofConfiguration config = .ok registry) : config.timing.Bounded :=
  ⟨resolution_ne_of_ofConfiguration h, config.resolution.toNat_lt, config.maxLength.toNat_lt⟩

/-- A bounded timing reaches the end of the longest sequence. -/
lemma Timing.Bounded.reaches {timing : Timing} (h : timing.Bounded) :
    timing.Reaches timing.maxLength := by
  have hspan : span = 2 ^ 128 := rfl
  have := h.resolution_lt
  have := h.maxLength_lt
  exact ⟨h.resolution_ne, by omega⟩

namespace Machine

/-! ## Arithmetic within limits -/

/-- The sum of two times. -/
def add (a b : Nat) : Except Error Nat :=
  if a + b < Timing.span then .ok (a + b) else .error (.trap .overflow)

/-- The product of a number of ticks and the length of one. -/
def mul (a b : Nat) : Except Error Nat :=
  if a * b < Timing.span then .ok (a * b) else .error (.trap .overflow)

/-- The difference of two sizes. -/
def sub (a b : Nat) : Except Error Nat :=
  if b ≤ a then .ok (a - b) else .error (.trap .overflow)

/-- One more, or one less. -/
def tally (n : Int) (more : Bool) : Except Error Int :=
  let m := if more then n + 1 else n - 1
  if -2 ^ 31 ≤ m ∧ m < 2 ^ 31 then .ok m else .error (.trap .overflow)

/-- The ticks in which an interval begins and ends. -/
def interval (timing : Timing) (start length : Nat) : Except Error (Nat × Nat) := do
  let first ← timing.floorTicks start
  let finish ← add start length
  let last ← timing.floorTicks finish
  return (first, last)

/-- A tick as a word of the program. One that has no word is reported with its time. -/
def tickWord (timing : Timing) (tick : Nat) : Except Error Word :=
  if tick < Word.count then .ok (BitVec.ofNat 32 tick)
  else do
    let nanos ← mul tick timing.resolution
    throw (.sequenceTooLong nanos timing.maxLength)

/-- The record of a mask from a tick onwards. -/
def ttlRecord (timing : Timing) (entry : Nat × Word) : Except Error TtlRecord :=
  (⟨·, entry.2⟩) <$> tickWord timing entry.1

variable {α : Type} {timing : Timing} {start length tick : Nat}

/-- A sum is computed if it fits. -/
lemma add_eq_ok (h : start + length < Timing.span) : add start length = .ok (start + length) :=
  if_pos h

/-- A product is computed if it fits. -/
lemma mul_eq_ok (h : tick * length < Timing.span) : mul tick length = .ok (tick * length) :=
  if_pos h

/-- A difference is computed if it is not negative. -/
lemma sub_eq_ok (h : length ≤ start) : sub start length = .ok (start - length) := if_pos h

/-- The ticks of an interval are told if its end is reached. -/
lemma interval_eq_ok (h : timing.Reaches (start + length)) :
    interval timing start length = .ok (timing.ticks start, timing.ticks (start + length)) := by
  rw [interval, h.floorTicks_eq, add_eq_ok h.lt_span]
  show (do let last ← timing.floorTicks (start + length); return (_, last)) = _
  rw [h.floorTicks_eq]
  rfl

/-- The word of a tick is computed if its time fits. -/
lemma tickWord_eq (h : tick * timing.resolution < Timing.span) :
    tickWord timing tick = PulseSequencer.tickWord timing tick := by
  rw [tickWord, mul_eq_ok h]
  rfl

/-- A TTL record is computed if the time of its tick fits. -/
lemma ttlRecord_eq {entry : Nat × Word} (h : entry.1 * timing.resolution < Timing.span) :
    ttlRecord timing entry = PulseSequencer.ttlRecord timing entry := by
  rw [ttlRecord, tickWord_eq h]
  rfl

/-! ## No limit is missed -/

/-- The machine gives the result, and is not trapped. -/
structure Computes (machine result : Except Error α) : Prop where
  same : machine = result
  untrapped : Result.Untrapped result

end Machine

end PulseSequencer

import PulseSequencer.Counting
import PulseSequencer.Proofs.Machine.Sweep
import PulseSequencer.Proofs.Sequence.Sound
import PulseSequencer.Proofs.Sequence.Grid

/-!
# What a machine makes of a sequence

The length of a sequence, its DDS changes, its program and its grid, computed by the machine. If the
timing reaches the end of the sequence, each of them is what it should be; if the sequence is sound
as well, none of them is trapped: every line is a line of the board, and every cell of the grid has
a place.

* `Machine.declaredLength`, `Machine.totalTicks`: the length.
* `Machine.transitions`, `Machine.compile`: the DDS changes and the program.
* `Machine.grid`, `Machine.isActive`: the grid and its cells.
* `Machine.samples`: the samples of count records.
* `Machine.transitions_eq_ok`, `Machine.compile_eq`, `Machine.grid_computes`,
  `Machine.isActive_eq_ok`, `Machine.samples_eq_ok`: the results.
* `Machine.compile_of_ok`: for every timing, a program that was compiled is the one that the machine
  compiles; `Machine.compile_computes` is the case of a sound sequence.
-/

namespace PulseSequencer

/-- A bounded timing reaches the end of a sound sequence. -/
lemma Sequence.Sound.reaches {s : Sequence} {registry : Registry} {timing : Timing}
    (hs : s.Sound registry timing) (ht : timing.Bounded) : timing.Reaches s.declaredLength :=
  ht.reaches.mono hs.declaredLength_le

/-- The pulses of a TTL section are on lines that a word has room for. -/
lemma lines_of_compileTtl {pulses : List TtlPulse} {timing : Timing} {total : Nat}
    {ttl : List TtlRecord} (h : compileTtl pulses timing total = .ok ttl) :
    ∀ p ∈ pulses, p.line.toNat < lineLimit := by
  unfold compileTtl at h
  split at h
  case isTrue hall => exact fun p hp => of_decide_eq_true (List.all_eq_true.mp hall p hp)
  case isFalse => cases h

namespace Machine

/-! ## Lengths -/

/-- The time at which an entry ends. -/
def finish : Event → Except Error Nat
  | .ttl p => add p.start p.length
  | .dds e => add e.start e.length

/-- The ticks in which an entry begins and ends. -/
def ends (timing : Timing) : Event → Except Error (Nat × Nat)
  | .ttl p => interval timing p.start p.length
  | .dds e => interval timing e.start e.length

/-- The explicit length of a sequence, or the end of the last entry if that is later. -/
def declaredLength (s : Sequence) : Except Error Nat := do
  let ends ← s.events.mapM finish
  return max s.extended (ends.foldr max 0)

/-- The length in ticks, rounded up. -/
def totalTicks (s : Sequence) (timing : Timing) : Except Error Nat := do
  let length ← declaredLength s
  timing.ceilTicks length

/-! ## Programs -/

/-- Whether the next event takes over the channel in the tick in which an event on it ends. -/
def handsOver (timing : Timing) (channel : UInt8) (last : Nat) :
    Option DdsEvent → Except Error Bool
  | none => .ok false
  | some next => do
    let start ← timing.floorTicks next.start
    return next.channel == channel && start == last

/-- The changes of events that are sorted by channel and start. -/
def walk (timing : Timing) : List DdsEvent → Except Error (List Transition)
  | [] => .ok []
  | e :: rest => do
    let (first, last) ← interval timing e.start e.length
    let taken ← handsOver timing e.channel last rest.head?
    let rise := { Transition.rise timing e with tick := first }
    let more ← walk timing rest
    return if taken then rise :: more else rise :: { rise with tick := last, on := false } :: more

/-- The DDS changes of a sequence in the order of time. -/
def transitions (s : Sequence) (timing : Timing) : Except Error (List Transition) := do
  let ts ← walk timing (s.ddsEvents.mergeSort Transition.eventLe)
  return ts.mergeSort Transition.le

/-- The record of a DDS change. -/
def ddsRecord (registry : Registry) (timing : Timing) (t : Transition) : Except Error DdsRecord :=
  match registry.ddsAt? t.channel with
  | none => .error (.unknownChannel (Registry.ddsLabel t.channel))
  | some dds => do
    let tick ← tickWord timing t.tick
    return {
      tick
      channel := t.channel
      profile := t.profile
      frequency := dds.boardFrequency.word t.frequency
      amplitude := if t.on then dds.boardAmplitude.half t.amplitude else 0
      phase := if t.on then phaseHalf t.phase else 0 }

/-- The DDS section of a sequence. -/
def compileDds (s : Sequence) (registry : Registry) (timing : Timing) :
    Except Error (List DdsRecord) := do
  let ts ← transitions s timing
  ts.mapM (ddsRecord registry timing)

/-- The program of a sequence. -/
def compile (s : Sequence) (registry : Registry) (timing : Timing) : Except Error Program := do
  let length ← declaredLength s
  if timing.maxLength < length then throw (.sequenceTooLong length timing.maxLength)
  let total ← totalTicks s timing
  if total = 0 then throw .emptySequence
  let ttl ← compileTtl s.ttlPulses timing total
  let dds ← compileDds s registry timing
  return ⟨Program.ofRecords ttl dds, total⟩

/-! ## The grid -/

/-- A place in a table of `rows` by `columns` cells. -/
def place (rows columns row column : Nat) : Except Error Unit :=
  if row < rows ∧ column < columns then .ok () else .error (.trap .outOfBounds)

/-- Whether an interval covers a tick. -/
def covers (timing : Timing) (start length tick : Nat) : Except Error Bool := do
  let (first, last) ← interval timing start length
  return first ≤ tick && tick < last

/-- Whether a pulse on a TTL line covers a tick. -/
def lineActive (s : Sequence) (timing : Timing) (line : UInt8) (tick : Nat) : Except Error Bool :=
  s.ttlPulses.anyM fun p =>
    if p.line == line then covers timing p.start p.length tick else pure false

/-- Whether an event on a DDS channel covers a tick. -/
def ddsActive (s : Sequence) (timing : Timing) (channel : UInt8) (tick : Nat) : Except Error Bool :=
  s.ddsEvents.anyM fun e =>
    if e.channel == channel then covers timing e.start e.length tick else pure false

/-- The cells of a row of the grid, each written into its place. -/
def cells (rows row : Nat) (columns : List Nat) (active : Nat → Except Error Bool) :
    Except Error (List Bool) :=
  columns.zipIdx.mapM fun (tick, column) => do
    place rows columns.length row column
    active tick

/-- The grid of a sequence. -/
def grid (s : Sequence) (registry : Registry) (timing : Timing) : Except Error Grid := do
  let total ← totalTicks s timing
  let pairs ← s.events.mapM (ends timing)
  let ticks := (0 :: total :: pairs.flatMap fun (a, b) => [a, b]).foldr Grid.insertTick []
  let columns := ticks.dropLast
  let labels := registry.channels.map (·.name) ++ registry.dds.map (·.name)
  let lines ← registry.channels.zipIdx.mapM fun (c, row) =>
    cells labels.length row columns (lineActive s timing c.index)
  let dds ← registry.dds.zipIdx.mapM fun (d, row) =>
    cells labels.length (registry.channels.length + row) columns (ddsActive s timing d.index)
  let times ← ticks.mapM (mul · timing.resolution)
  return ⟨times, labels, lines ++ dds⟩

/-- The cell in the first row of a label and the column of a time. -/
def isActive (g : Grid) (label : String) (nanos : Nat) : Except Error (Option Bool) :=
  match g.labels.findIdx? (· == label), Grid.column? nanos g.times with
  | some row, some column =>
    match g.cells[row]?.bind (·[column]?) with
    | some b => .ok (some b)
    | none => .error (.trap .outOfBounds)
  | _, _ => .ok none

/-- The samples of records that were collected back to back, the last one closed at `readTime`. -/
def samples (records : List Record) (seconds readTime : Float) : Except Error (List Sample) :=
  records.zipIdx.mapM fun (r, i) => do
    let last ← sub records.length 1
    let back ← sub last i
    return ⟨toKilohertz r.count seconds, r.light, readTime - Float.ofNat back * seconds⟩

/-! ## Lengths and programs -/

section

variable {s : Sequence} {registry : Registry} {timing : Timing}

/-- The end of an entry is told if it is reached, -/
lemma finish_eq_ok {e : Event} (he : timing.Reaches e.finish) : finish e = .ok e.finish := by
  have hspan := he.lt_span
  cases e <;> exact add_eq_ok hspan

/-- and so are its ticks, -/
lemma ends_eq_ok {e : Event} (he : timing.Reaches e.finish) :
    ends timing e = .ok (timing.ticks e.start, timing.ticks e.finish) := by
  cases e <;> exact interval_eq_ok he

/-- and the changes of events whose ends are reached. -/
lemma walk_eq_ok {es : List DdsEvent} (hes : ∀ e ∈ es, timing.Reaches e.finish) :
    walk timing es = .ok (Transition.walk timing es) := by
  induction es with
  | nil => rfl
  | cons e rest ih =>
    obtain ⟨he, hrest⟩ := List.forall_mem_cons.mp hes
    have hinterval : interval timing e.start e.length =
        .ok (timing.ticks e.start, timing.ticks e.finish) := interval_eq_ok he
    have htaken : handsOver timing e.channel (timing.ticks e.finish) rest.head? =
        .ok (Transition.handsOver timing e rest.head?) := by
      cases rest.head? with
      | none => rfl
      | some next =>
        rw [handsOver, he.floorTicks_eq]
        rfl
    rw [walk, hinterval]
    show (handsOver timing e.channel (timing.ticks e.finish) rest.head? >>= _) = _
    rw [htaken, ih hrest]
    rfl

/-- A tick has a word or is refused, without a trap. -/
lemma untrapped_tickWord (timing : Timing) (tick : Nat) :
    Result.Untrapped (PulseSequencer.tickWord timing tick) :=
  Result.untrapped_ite (Result.untrapped_ok _) (Result.untrapped_error rfl)

/-- The TTL section is there or refused without a trap, if lines are lines of the board. -/
lemma untrapped_compileTtl {pulses : List TtlPulse} (h : ∀ p ∈ pulses, p.line.toNat < lineLimit)
    (timing : Timing) (total : Nat) :
    Result.Untrapped (PulseSequencer.compileTtl pulses timing total) := by
  rw [PulseSequencer.compileTtl, if_pos (List.all_eq_true.mpr fun p hp => decide_eq_true (h p hp))]
  exact Result.untrapped_mapM fun _ _ => Result.untrapped_map (untrapped_tickWord _ _)

/-- The DDS section is there or refused, without a trap. -/
lemma untrapped_compileDds (s : Sequence) (registry : Registry) (timing : Timing) :
    Result.Untrapped (PulseSequencer.compileDds s registry timing) := by
  refine Result.untrapped_mapM fun t _ => ?_
  unfold PulseSequencer.ddsRecord
  split
  · exact Result.untrapped_error rfl
  · exact Result.untrapped_bind (untrapped_tickWord _ _) fun _ _ => Result.untrapped_ok _

section

variable (ht : timing.Reaches s.declaredLength)
include ht

/-- A timing that reaches the end of a sequence reaches the ends of its entries. -/
lemma reaches_finish {e : Event} (he : e ∈ s.events) : timing.Reaches e.finish :=
  ht.mono (Sequence.finish_le_declaredLength he)

/-- The length of a sequence is told, -/
lemma declaredLength_eq_ok : declaredLength s = .ok s.declaredLength := by
  have hends : s.events.mapM finish = .ok (s.events.map Event.finish) :=
    Result.mapM_eq_ok fun e he => finish_eq_ok (reaches_finish ht he)
  rw [declaredLength, hends]
  show Except.ok (max s.extended ((s.events.map Event.finish).foldr max 0)) = _
  rw [List.foldr_map]
  rfl

/-- and so is its length in ticks. -/
lemma totalTicks_eq : totalTicks s timing = s.totalTicks timing := by
  rw [totalTicks, declaredLength_eq_ok ht]
  rfl

/-- The DDS changes of a sequence are those that they should be. -/
lemma transitions_eq_ok : transitions s timing = .ok (s.transitions timing) := by
  have hreach : ∀ e ∈ s.ddsEvents.mergeSort Transition.eventLe, timing.Reaches e.finish :=
    fun e he => reaches_finish ht (Sequence.mem_ddsEvents.mp (List.mem_mergeSort.mp he))
  rw [transitions, walk_eq_ok hreach]
  rfl

/-- The time of a DDS change is that of a tick within the sequence. -/
lemma tick_mul_lt {t : Transition} (h : t ∈ s.transitions timing) :
    t.tick * timing.resolution < Timing.span := by
  obtain ⟨e, he, hchange⟩ := Transition.mem_walk (List.mem_mergeSort.mp h)
  have hfinish := reaches_finish ht (Sequence.mem_ddsEvents.mp (List.mem_mergeSort.mp he))
  rcases hchange with rfl | rfl
  · exact (hfinish.mono (Event.start_le_finish _)).ticks_mul_lt
  · exact hfinish.ticks_mul_lt

/-- The DDS section is the one that the compiler makes. -/
lemma compileDds_eq : compileDds s registry timing =
    PulseSequencer.compileDds s registry timing := by
  rw [compileDds, transitions_eq_ok ht]
  refine Result.mapM_congr fun t h => ?_
  rw [ddsRecord, tickWord_eq (tick_mul_lt ht h)]
  rfl

/-- A sequence whose end is reached is compiled as it should be, whether it is too long or not. -/
theorem compile_eq (hlines : ∀ p ∈ s.ttlPulses, p.line.toNat < lineLimit)
    (hroom : s.events.length < 2 ^ 31) :
    compile s registry timing = PulseSequencer.compile s registry timing := by
  have hreach : ∀ p ∈ s.ttlPulses, timing.Reaches p.finish :=
    fun p hp => reaches_finish ht (Sequence.mem_ttlPulses.mp hp)
  have hpulses : s.ttlPulses.length < 2 ^ 31 := (List.length_filterMap_le _ _).trans_lt hroom
  have htotal : s.totalTicks timing = .ok (timing.cover s.declaredLength) := ht.ceilTicks_eq
  -- the length is checked in the same way, and then both come to the two sections
  rw [compile, PulseSequencer.compile, declaredLength_eq_ok ht, totalTicks_eq ht, htotal]
  show (if timing.maxLength < s.declaredLength then _ else _) =
    if timing.maxLength < s.declaredLength then _ else _
  refine if_congr Iff.rfl rfl ?_
  show (if timing.cover s.declaredLength = 0 then _ else _) =
    if timing.cover s.declaredLength = 0 then _ else _
  rw [compileTtl_eq ht.cover_mul_lt hreach hlines hpulses, compileDds_eq ht]

end

/-- Whatever the timing, a program that was compiled is the one that the machine compiles. -/
theorem compile_of_ok {p : Program} (hok : PulseSequencer.compile s registry timing = .ok p)
    (hroom : s.events.length < 2 ^ 31) : compile s registry timing = .ok p := by
  obtain ⟨ttl, dds, hp⟩ := Compiled.of_compile hok
  have hlines : ∀ p ∈ s.ttlPulses, p.line.toNat < lineLimit := lines_of_compileTtl hp.ttlSection
  rw [compile_eq (Timing.reaches_of_ceilTicks hp.total) hlines hroom, hok]

/-- The machine compiles a sound sequence as it should, and is not trapped. -/
lemma compile_computes (ht : timing.Bounded) (hs : s.Sound registry timing)
    (hlines : ∀ line, registry.HasLine line → line.toNat < lineLimit)
    (hroom : s.events.length < 2 ^ 31) :
    Computes (compile s registry timing) (PulseSequencer.compile s registry timing) := by
  have hreaches := hs.reaches ht
  have hboard : ∀ p ∈ s.ttlPulses, p.line.toNat < lineLimit :=
    fun p hp => hlines _ (hs.events _ (Sequence.mem_ttlPulses.mp hp)).2
  have htotal : s.totalTicks timing = .ok (timing.cover s.declaredLength) := hreaches.ceilTicks_eq
  refine ⟨compile_eq hreaches hboard hroom, ?_⟩
  rw [PulseSequencer.compile, htotal, if_neg (Nat.not_lt_of_le hs.declaredLength_le)]
  show Result.Untrapped (if timing.cover s.declaredLength = 0 then _ else _)
  refine Result.untrapped_unless rfl fun _ => ?_
  refine Result.untrapped_bind (untrapped_compileTtl hboard _ _) fun _ _ => ?_
  exact Result.untrapped_bind (untrapped_compileDds s registry timing) fun _ _ =>
    Result.untrapped_ok _

/-! ## The grid -/

/-- Whether an interval covers a tick is told if its end is reached. -/
lemma covers_eq_ok {start length : Nat} (h : timing.Reaches (start + length)) (tick : Nat) :
    covers timing start length tick = .ok (Grid.covers timing start (start + length) tick) := by
  rw [covers, interval_eq_ok h]
  rfl

/-- The cells of a row, each of them in its place. -/
lemma cells_eq_ok {rows row : Nat} (hrow : row < rows) (columns : List Nat)
    {active : Nat → Except Error Bool} {f : Nat → Bool} (h : ∀ tick, active tick = .ok (f tick)) :
    cells rows row columns active = .ok (columns.map f) := by
  refine Result.mapM_zipIdx_eq_ok fun tick column hcolumn => ?_
  show (place rows columns.length row column >>= fun _ => active tick) = _
  rw [place, if_pos ⟨hrow, hcolumn⟩]
  exact h tick

variable (ht : timing.Reaches s.declaredLength)
include ht

/-- The ticks of all entries are told. -/
lemma ends_mapM_eq_ok : s.events.mapM (ends timing) =
    .ok (s.events.map fun e => (timing.ticks e.start, timing.ticks e.finish)) :=
  Result.mapM_eq_ok fun _ he => ends_eq_ok (reaches_finish ht he)

/-- Whether a line is high in a tick is told, -/
lemma lineActive_eq_ok (line : UInt8) (tick : Nat) :
    lineActive s timing line tick = .ok (Grid.lineActive s timing line tick) := by
  refine Result.anyM_eq_ok fun p hp => ?_
  have hreach : timing.Reaches (p.start + p.length) :=
    reaches_finish ht (Sequence.mem_ttlPulses.mp hp)
  by_cases hline : p.line = line
  · simp [hline, covers_eq_ok hreach, TtlPulse.finish]
  · simp [hline, pure, Except.pure]

/-- and whether a DDS channel is on. -/
lemma ddsActive_eq_ok (channel : UInt8) (tick : Nat) :
    ddsActive s timing channel tick = .ok (Grid.ddsActive s timing channel tick) := by
  refine Result.anyM_eq_ok fun e he => ?_
  have hreach : timing.Reaches (e.start + e.length) :=
    reaches_finish ht (Sequence.mem_ddsEvents.mp he)
  by_cases hchannel : e.channel = channel
  · simp [hchannel, covers_eq_ok hreach, DdsEvent.finish]
  · simp [hchannel, pure, Except.pure]

/-- The machine makes the grid of a sequence whose end is reached as it should. -/
lemma grid_computes (registry : Registry) :
    Computes (grid s registry timing) (Grid.ofSequence s registry timing) := by
  have htotal : s.totalTicks timing = .ok (timing.cover s.declaredLength) := ht.ceilTicks_eq
  have hgrid := Grid.ofSequence_of_totalTicks htotal registry
  refine ⟨?_, by rw [hgrid]; exact Result.untrapped_ok _⟩
  -- the machine inserts the ticks of one entry after the other: these are the boundaries
  have hticks : (0 :: timing.cover s.declaredLength ::
      (s.events.map fun e => (timing.ticks e.start, timing.ticks e.finish)).flatMap
        fun (a, b) => [a, b]).foldr Grid.insertTick [] =
      Grid.boundaries s timing (timing.cover s.declaredLength) := by
    rw [List.flatMap_map]
    rfl
  have htimes : (Grid.boundaries s timing (timing.cover s.declaredLength)).mapM
      (mul · timing.resolution) = .ok _ :=
    Result.mapM_eq_ok fun tick h => mul_eq_ok <| Nat.lt_of_le_of_lt
      (Nat.mul_le_mul_right _ (Grid.le_of_mem_boundaries htotal h)) ht.cover_mul_lt
  have hlines (columns : List Nat) : (registry.channels.zipIdx.mapM fun (c, row) =>
      cells (registry.channels.length + registry.dds.length) row columns
        (lineActive s timing c.index)) =
      .ok (registry.channels.map fun c => columns.map (Grid.lineActive s timing c.index)) :=
    Result.mapM_zipIdx_eq_ok fun c row hrow =>
      cells_eq_ok (Nat.lt_add_right _ hrow) columns (lineActive_eq_ok ht c.index)
  have hdds (columns : List Nat) : (registry.dds.zipIdx.mapM fun (d, row) =>
      cells (registry.channels.length + registry.dds.length) (registry.channels.length + row)
        columns (ddsActive s timing d.index)) =
      .ok (registry.dds.map fun d => columns.map (Grid.ddsActive s timing d.index)) :=
    Result.mapM_zipIdx_eq_ok fun d row hrow =>
      cells_eq_ok (Nat.add_lt_add_left hrow _) columns (ddsActive_eq_ok ht d.index)
  rw [grid, totalTicks_eq ht, htotal, ends_mapM_eq_ok ht, hgrid]
  simp only [bind, Except.bind, hticks, List.length_append, List.length_map, hlines, hdds, htimes]
  rfl

end

/-- The cell of a label and a time is found in every table whose rows are equally long. -/
lemma isActive_eq_ok {g : Grid} (h : g.Rectangular) (label : String) (nanos : Nat) :
    isActive g label nanos = .ok (g.isActive label nanos) := by
  unfold isActive Grid.isActive
  cases hrow : g.labels.findIdx? (· == label) with
  | none => rfl
  | some row =>
    cases hcolumn : Grid.column? nanos g.times with
    | none => rfl
    | some column =>
      obtain ⟨b, hb⟩ := h.exists_cell hrow hcolumn
      simp only [hb]
      exact congrArg Except.ok hb.symm

/-- The samples of records are computed. -/
lemma samples_eq_ok (records : List Record) (seconds readTime : Float) :
    samples records seconds readTime = .ok (Sample.ofRecords records seconds readTime) := by
  rw [samples, Sample.ofRecords, List.mapIdx_eq_zipIdx_map]
  refine Result.mapM_eq_ok fun (r, i) h => ?_
  have hi : i < records.length := by simpa using List.snd_lt_of_mem_zipIdx h
  have hlast : sub records.length 1 = .ok (records.length - 1) := sub_eq_ok (by omega)
  have hback : sub (records.length - 1) i = .ok (records.length - 1 - i) := sub_eq_ok (by omega)
  rw [hlast]
  show (sub (records.length - 1) i >>= _) = _
  rw [hback]
  rfl

end Machine

end PulseSequencer

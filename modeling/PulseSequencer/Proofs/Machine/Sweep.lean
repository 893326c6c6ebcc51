import PulseSequencer.Board
import PulseSequencer.Proofs.Machine.Arithmetic
import PulseSequencer.Proofs.Program.Waveform

/-!
# The sweep with counters

The machine goes over the edges of the pulses tick by tick. It keeps how many pulses hold each line
and the word of the lines that are held, and writes a record whenever the word has changed. With
fewer than `2 ^ 31` pulses no counter overflows, and the records are those of the compiler, which
counts edges instead.

* `Machine.Sweep`: the counters and the word; `Machine.Sweep.pass`, an edge is passed.
* `Machine.compileTtl`: the TTL section of the sweep.
* `Machine.Sweep.Passed`: what the counters and the word are after edges were passed;
  `Machine.Sweep.exists_pass` is one step, `Machine.Sweep.exists_foldlM` a number of them.
* `Machine.compileTtl_eq`: the sweep makes the same section.
-/

namespace PulseSequencer

/-- The number of rising or of falling edges of a line. -/
def Edge.count (edges : List Edge) (rising : Bool) (line : UInt8) : Nat :=
  edges.countP fun e => e.rising == rising && e.line == line

namespace Machine

/-- Where a sweep is: the number of pulses that hold each line, and the lines that are held. -/
structure Sweep where
  active : UInt8 → Int
  mask : Word

namespace Sweep

/-- No edge was passed. -/
def start : Sweep := ⟨fun _ => 0, 0⟩

/-- The sweep after one more edge. -/
def pass (w : Sweep) (e : Edge) : Except Error Sweep := do
  if lineLimit ≤ e.line.toNat then throw (.trap .outOfBounds)
  let n ← tally (w.active e.line) e.rising
  return ⟨setAt w.active e.line n, w.mask.assign e.line.toNat (0 < n)⟩

/-- The sweep after the edges of a tick, in the order in which their pulses were added. -/
def passTick (edges : List Edge) (w : Sweep) (tick : Nat) : Except Error Sweep :=
  (edges.filter (·.tick = tick)).foldlM pass w

/-- The records of the ticks at which the word changes. -/
def changes (timing : Timing) (edges : List Edge) : Sweep → List Nat → Except Error (List TtlRecord)
  | _, [] => .ok []
  | w, tick :: rest => do
    let w' ← passTick edges w tick
    if w'.mask = w.mask then changes timing edges w' rest
    else
      let r ← ttlRecord timing (tick, w'.mask)
      let rs ← changes timing edges w' rest
      return r :: rs

end Sweep

/-- The edges of pulses. -/
def edges (timing : Timing) (pulses : List TtlPulse) : Except Error (List Edge) := do
  let pairs ← pulses.mapM fun p => do
    let (first, last) ← interval timing p.start p.length
    return [⟨first, p.line, true⟩, ⟨last, p.line, false⟩]
  return pairs.flatten

/-- The TTL section: the word at tick 0, a record per change before the end, and an all-low record
at the end. -/
def compileTtl (pulses : List TtlPulse) (timing : Timing) (total : Nat) :
    Except Error (List TtlRecord) := do
  let es ← edges timing pulses
  let w ← Sweep.passTick es .start 0
  let rs ← Sweep.changes timing es w (Edge.ticksWithin es total).dedup
  let last ← ttlRecord timing (total, 0)
  return ⟨0, w.mask⟩ :: rs ++ [last]

/-! ## Passing edges -/

namespace Sweep

/-- After the edges `done` each counter tells how much oftener its line was raised than lowered, and
a line is in the word if its counter is positive. -/
structure Passed (done : List Edge) (w : Sweep) : Prop where
  active : ∀ line, w.active line = (Edge.count done true line : Int) - Edge.count done false line
  mask : ∀ line : UInt8, line.toNat < lineLimit →
    w.mask.getLsbD line.toNat = decide (0 < w.active line)

/-- Before any edge all counters are zero and no line is in the word. -/
lemma passed_start : Passed [] start := ⟨fun _ => rfl, fun line _ => by simp [start]⟩

variable {done es : List Edge} {w : Sweep} {e : Edge}

/-- The order in which edges were passed does not matter. -/
lemma Passed.perm (h : Passed done w) {done' : List Edge} (perm : done.Perm done') :
    Passed done' w := by
  refine ⟨fun line => ?_, h.mask⟩
  rw [h.active, Edge.count, Edge.count, perm.countP_eq, perm.countP_eq]
  rfl

/-- One more edge counts for its own line and direction only. -/
lemma count_concat (done : List Edge) (e : Edge) (rising : Bool) (line : UInt8) :
    Edge.count (done ++ [e]) rising line =
      Edge.count done rising line + if e.rising = rising ∧ e.line = line then 1 else 0 := by
  rw [Edge.count, List.countP_append, List.countP_singleton]
  simp [Edge.count]

/-- One more edge can be passed if it is on a line of the board and the counters have room. -/
lemma exists_pass (h : Passed done w) (hline : e.line.toNat < lineLimit)
    (hroom : ∀ rising line, Edge.count (done ++ [e]) rising line < 2 ^ 31) :
    ∃ w', pass w e = .ok w' ∧ Passed (done ++ [e]) w' := by
  -- what the counter of the line comes to
  obtain ⟨n, hn⟩ : ∃ n : Int, n = (Edge.count (done ++ [e]) true e.line : Int) -
      Edge.count (done ++ [e]) false e.line := ⟨_, rfl⟩
  have hcount : (if e.rising then w.active e.line + 1 else w.active e.line - 1) = n := by
    rw [hn, h.active, count_concat, count_concat]
    cases e.rising <;> simp <;> omega
  have htally : tally (w.active e.line) e.rising = .ok n := by
    have hrisen := hroom true e.line
    have hfallen := hroom false e.line
    rw [tally, hcount]
    exact if_pos (by omega)
  refine ⟨⟨setAt w.active e.line n, w.mask.assign e.line.toNat (0 < n)⟩, ?_, ?_, ?_⟩
  · rw [pass, if_neg (Nat.not_le_of_lt hline), htally]
    rfl
  · intro line
    show setAt w.active e.line n line = _
    by_cases heq : line = e.line
    · rw [heq, setAt_same, hn]
    · rw [setAt_ne _ _ heq, h.active, count_concat, count_concat]
      simp [Ne.symm heq]
  · intro line hlt
    show (w.mask.assign e.line.toNat (0 < n)).getLsbD line.toNat =
      decide (0 < setAt w.active e.line n line)
    rw [Word.getLsbD_assign _ _ _ hlt]
    by_cases heq : line = e.line
    · rw [heq, if_pos rfl, setAt_same]
    · rw [if_neg fun h => heq (UInt8.toNat_inj.mp h), setAt_ne _ _ heq, h.mask line hlt]

/-- More edges can be passed, one after the other. -/
lemma exists_foldlM (h : Passed done w) (hlines : ∀ e ∈ es, e.line.toNat < lineLimit)
    (hroom : ∀ rising line, Edge.count (done ++ es) rising line < 2 ^ 31) :
    ∃ w', es.foldlM pass w = .ok w' ∧ Passed (done ++ es) w' := by
  induction es generalizing done w with
  | nil => exact ⟨w, rfl, by rwa [List.append_nil]⟩
  | cons e es ih =>
    obtain ⟨hline, hlines⟩ := List.forall_mem_cons.mp hlines
    have happend : done ++ e :: es = done ++ [e] ++ es := by simp
    rw [happend] at hroom ⊢
    have hfirst (rising : Bool) (line : UInt8) :
        Edge.count (done ++ [e]) rising line < 2 ^ 31 :=
      Nat.lt_of_le_of_lt (List.sublist_append_left _ es).countP_le (hroom rising line)
    obtain ⟨w₁, hpass, h₁⟩ := exists_pass h hline hfirst
    obtain ⟨w₂, hrest, h₂⟩ := ih h₁ hlines hroom
    exact ⟨w₂, by rw [List.foldlM_cons, hpass]; exact hrest, h₂⟩

/-! ## Ticks in order -/

/-- The edges up to a tick, if there are none between it and the one before. -/
lemma perm_filter_le {edges : List Edge} {t u : Nat} (htu : t < u)
    (hgap : ∀ e ∈ edges, e.tick ≤ t ∨ u ≤ e.tick) :
    (edges.filter (·.tick ≤ t) ++ edges.filter (·.tick = u)).Perm (edges.filter (·.tick ≤ u)) := by
  have hsplit := List.filter_append_perm (·.tick ≤ t) (edges.filter (·.tick ≤ u))
  rw [List.filter_filter, List.filter_filter] at hsplit
  refine .trans (.of_eq (congrArg₂ _ ?_ ?_)) hsplit
  · refine List.filter_congr fun e _ => ?_
    rw [Bool.eq_iff_iff]
    simp only [Bool.and_eq_true, decide_eq_true_eq]
    omega
  · refine List.filter_congr fun e he => ?_
    have := hgap e he
    rw [Bool.eq_iff_iff]
    simp only [Bool.and_eq_true, Bool.not_eq_true', decide_eq_true_eq, decide_eq_false_iff_not]
    omega

/-- A sweep that has passed the edges up to a tick has the word of the lines that are high in it. -/
lemma Passed.mask_eq {edges : List Edge} {t : Nat} (h : Passed (edges.filter (·.tick ≤ t)) w) :
    w.mask = Edge.mask edges t := by
  have hpassed (rising : Bool) (line : UInt8) : Edge.count (edges.filter (·.tick ≤ t)) rising line =
      Edge.passed edges rising line.toNat t := by
    rw [Edge.count, Edge.passed, List.countP_filter]
    refine List.countP_congr fun e _ => ?_
    simp [UInt8.toNat_inj]
  refine BitVec.eq_of_getLsbD_eq fun c hc => ?_
  have hsize : (UInt8.ofNat c).toNat = c := UInt8.toNat_ofNat_of_lt' (Nat.lt_trans hc (by decide))
  have hbit := h.mask (UInt8.ofNat c) (by rw [hsize]; exact hc)
  rw [h.active, hpassed, hpassed, hsize] at hbit
  rw [hbit, Edge.getLsbD_mask _ _ hc, Edge.high, decide_eq_decide]
  omega

section

variable {edges : List Edge} (hlines : ∀ e ∈ edges, e.line.toNat < lineLimit)
  (hroom : ∀ rising line, Edge.count edges rising line < 2 ^ 31)
include hlines hroom

/-- The edges of the next tick that has some are passed without a trap. -/
lemma exists_passTick {t u : Nat} (h : Passed (edges.filter (·.tick ≤ t)) w) (htu : t < u)
    (hgap : ∀ e ∈ edges, e.tick ≤ t ∨ u ≤ e.tick) :
    ∃ w', passTick edges w u = .ok w' ∧ Passed (edges.filter (·.tick ≤ u)) w' := by
  have hperm := perm_filter_le htu hgap
  obtain ⟨w', hfold, h'⟩ := exists_foldlM h
    (fun e he => hlines e (List.mem_of_mem_filter he)) fun rising line => by
      rw [Edge.count, hperm.countP_eq]
      exact Nat.lt_of_le_of_lt List.filter_sublist.countP_le (hroom rising line)
  exact ⟨w', hfold, h'.perm hperm⟩

/-- The edges of tick 0 are passed without a trap. -/
lemma exists_passTick_zero :
    ∃ w, passTick edges start 0 = .ok w ∧ Passed (edges.filter (·.tick ≤ 0)) w := by
  have hzero : edges.filter (·.tick ≤ 0) = edges.filter (·.tick = 0) :=
    List.filter_congr fun e _ => by simp
  rw [hzero]
  exact exists_foldlM passed_start (fun e he => hlines e (List.mem_of_mem_filter he))
    fun rising line => Nat.lt_of_le_of_lt List.filter_sublist.countP_le (hroom rising line)

/-- From a tick onwards the sweep writes the changes of the mask. -/
lemma changes_eq {timing : Timing} {total t : Nat} {ticks : List Nat}
    (hspan : total * timing.resolution < Timing.span) (h : Passed (edges.filter (·.tick ≤ t)) w)
    (hticks : (t :: ticks).Pairwise (· < ·)) (hwithin : ∀ u ∈ ticks, u < total)
    (hedges : ∀ e ∈ edges, e.tick < total → e.tick ≤ t ∨ e.tick ∈ ticks) :
    changes timing edges w ticks =
      (maskChanges (Edge.mask edges) (Edge.mask edges t) ticks).mapM
        (PulseSequencer.ttlRecord timing) := by
  induction ticks generalizing t w with
  | nil => rfl
  | cons u rest ih =>
    obtain ⟨hafter, hrest⟩ := List.pairwise_cons.mp hticks
    obtain ⟨hu, hwithin⟩ := List.forall_mem_cons.mp hwithin
    have hnext := (List.pairwise_cons.mp hrest).1
    -- no edge lies between two ticks that follow each other
    have hgap : ∀ e ∈ edges, e.tick ≤ t ∨ u ≤ e.tick := by
      intro e he
      by_cases hlt : e.tick < total
      · rcases hedges e he hlt with hle | hmem
        · exact .inl hle
        · rcases List.mem_cons.mp hmem with heq | hmem
          · exact .inr heq.ge
          · exact .inr (hnext _ hmem).le
      · omega
    obtain ⟨w', hpass, h'⟩ := exists_passTick hlines hroom h (hafter u List.mem_cons_self) hgap
    have hmore : ∀ e ∈ edges, e.tick < total → e.tick ≤ u ∨ e.tick ∈ rest := by
      intro e he hlt
      rcases hedges e he hlt with hle | hmem
      · exact .inl (hle.trans (hafter u List.mem_cons_self).le)
      · rcases List.mem_cons.mp hmem with heq | hmem
        · exact .inl heq.le
        · exact .inr hmem
    have hrecords := ih h' hrest hwithin hmore
    rw [changes, hpass]
    show (if w'.mask = w.mask then changes timing edges w' rest else _) = _
    rw [maskChanges, h.mask_eq, h'.mask_eq, hrecords]
    by_cases hsame : Edge.mask edges u = Edge.mask edges t
    · rw [if_pos hsame, if_pos hsame, hsame]
    · have hrecord : u * timing.resolution < Timing.span :=
        Nat.lt_of_le_of_lt (Nat.mul_le_mul_right _ hu.le) hspan
      rw [if_neg hsame, if_neg hsame, List.mapM_cons, ttlRecord_eq hrecord]

end

end Sweep

/-! ## The section -/

/-- A tick that is looked at again changes nothing. -/
lemma maskChanges_dedup {mask : Nat → Word} {previous : Word} {ticks : List Nat}
    (sorted : ticks.Pairwise (· ≤ ·)) :
    maskChanges mask previous ticks.dedup = maskChanges mask previous ticks := by
  induction ticks generalizing previous with
  | nil => rfl
  | cons t rest ih =>
    obtain ⟨hfirst, hrest⟩ := List.pairwise_cons.mp sorted
    by_cases hmem : t ∈ rest
    · rw [List.dedup_cons_of_mem hmem, ih hrest]
      -- what is first in the rest is `t` as well
      cases rest with
      | nil => cases hmem
      | cons u rest =>
        have heq : u = t := by
          refine Nat.le_antisymm ?_ (hfirst u List.mem_cons_self)
          rcases List.mem_cons.mp hmem with rfl | hmem
          · exact le_rfl
          · exact (List.pairwise_cons.mp hrest).1 t hmem
        subst heq
        simp only [maskChanges]
        split <;> simp [*]
    · rw [List.dedup_cons_of_notMem hmem]
      simp only [maskChanges, ih hrest]

variable {timing : Timing} {pulses : List TtlPulse}

/-- The edges of pulses whose ends are reached. -/
lemma edges_eq_ok (hreach : ∀ p ∈ pulses, timing.Reaches p.finish) :
    edges timing pulses = .ok (Edge.ofPulses timing pulses) := by
  have hpairs : (pulses.mapM fun p => do
      let (first, last) ← interval timing p.start p.length
      return [(⟨first, p.line, true⟩ : Edge), ⟨last, p.line, false⟩]) =
      .ok (pulses.map fun p =>
        [⟨timing.ticks p.start, p.line, true⟩, ⟨timing.ticks p.finish, p.line, false⟩]) :=
    Result.mapM_eq_ok fun p hp => by
      rw [interval_eq_ok (hreach p hp)]
      rfl
  rw [edges, hpairs]
  rfl

/-- A line is raised and lowered at most once by each pulse. -/
lemma count_ofPulses_le (rising : Bool) (line : UInt8) :
    Edge.count (Edge.ofPulses timing pulses) rising line ≤ pulses.length := by
  induction pulses with
  | nil => exact le_rfl
  | cons p pulses ih =>
    have hsplit : Edge.ofPulses timing (p :: pulses) =
        [⟨timing.ticks p.start, p.line, true⟩, ⟨timing.ticks p.finish, p.line, false⟩] ++
          Edge.ofPulses timing pulses := rfl
    have hpair : List.countP (fun e : Edge => e.rising == rising && e.line == line)
        [⟨timing.ticks p.start, p.line, true⟩, ⟨timing.ticks p.finish, p.line, false⟩] ≤ 1 := by
      cases rising <;> simp [List.countP_cons] <;> split <;> simp
    rw [hsplit, Edge.count, List.countP_append, List.length_cons]
    exact (Nat.add_le_add hpair ih).trans (Nat.add_comm _ _).le

/-- Whatever the timing, the sweep makes the section that the compiler makes, if the ends of the
pulses and of the whole sequence are reached. -/
theorem compileTtl_eq {total : Nat} (hspan : total * timing.resolution < Timing.span)
    (hreach : ∀ p ∈ pulses, timing.Reaches p.finish)
    (hlines : ∀ p ∈ pulses, p.line.toNat < lineLimit) (hroom : pulses.length < 2 ^ 31) :
    compileTtl pulses timing total = PulseSequencer.compileTtl pulses timing total := by
  have hedges : ∀ e ∈ Edge.ofPulses timing pulses, e.line.toNat < lineLimit := by
    intro e he
    obtain ⟨p, hp, he⟩ := List.mem_flatMap.mp he
    have hline : e.line = p.line := by
      rcases List.mem_cons.mp he with rfl | he
      · rfl
      · rw [List.mem_singleton.mp he]
    rw [hline]
    exact hlines p hp
  have hcount (rising : Bool) (line : UInt8) :
      Edge.count (Edge.ofPulses timing pulses) rising line < 2 ^ 31 :=
    (count_ofPulses_le rising line).trans_lt hroom
  have hsorted := Edge.ticksWithin_sorted (Edge.ofPulses timing pulses) total
  have hincreasing : (0 :: (Edge.ticksWithin (Edge.ofPulses timing pulses) total).dedup).Pairwise
      (· < ·) := by
    refine List.pairwise_cons.mpr ⟨fun u hu => ?_, ?_⟩
    · exact (Edge.mem_ticksWithin.mp (List.mem_dedup.mp hu)).2.1
    · have hle := hsorted.sublist (List.dedup_sublist _)
      have hne : (Edge.ticksWithin (Edge.ofPulses timing pulses) total).dedup.Pairwise (· ≠ ·) :=
        List.nodup_dedup _
      exact (hle.and hne).imp fun h => Nat.lt_of_le_of_ne h.1 h.2
  obtain ⟨w, hfirst, hw⟩ := Sweep.exists_passTick_zero hedges hcount
  have hchanges := Sweep.changes_eq hedges hcount hspan hw hincreasing
    (fun u hu => (Edge.mem_ticksWithin.mp (List.mem_dedup.mp hu)).2.2) fun e he hlt => by
      by_cases hzero : e.tick ≤ 0
      · exact .inl hzero
      · exact .inr (List.mem_dedup.mpr
          (Edge.mem_ticksWithin.mpr ⟨⟨e, he, rfl⟩, Nat.pos_of_ne_zero (by omega), hlt⟩))
  rw [maskChanges_dedup hsorted] at hchanges
  have hall : pulses.all (fun p => p.line.toNat < lineLimit) = true :=
    List.all_eq_true.mpr fun p hp => decide_eq_true (hlines p hp)
  have hlast : ttlRecord timing (total, 0) = PulseSequencer.ttlRecord timing (total, 0) :=
    ttlRecord_eq hspan
  have hfirst' : PulseSequencer.ttlRecord timing (0, Edge.mask (Edge.ofPulses timing pulses) 0) =
      .ok ⟨0, w.mask⟩ := by
    rw [hw.mask_eq]
    rfl
  rw [compileTtl, edges_eq_ok hreach, PulseSequencer.compileTtl, if_pos hall]
  simp only [bind, Except.bind, hfirst, hchanges, hlast, List.cons_append,
    List.mapM_cons, List.mapM_append, hfirst']
  -- both go on in the same way from the records of the changes
  cases (maskChanges _ _ _).mapM (PulseSequencer.ttlRecord timing) with
  | error e => rfl
  | ok rs => cases PulseSequencer.ttlRecord timing (total, 0) <;> rfl

end Machine

end PulseSequencer

import PulseSequencer.Proofs.Program.Compilable
import PulseSequencer.Proofs.Program.Format
import PulseSequencer.Proofs.Program.Order
import PulseSequencer.Proofs.Program.Waveform

/-!
# One TTL section for each waveform

The records of a TTL section turn the mask into another one at growing ticks. Only one list of such
records tells a given mask in each tick, so the section of a sequence is settled by its total and by
the ticks in which its lines are active. How they are drawn as pulses leaves no trace.

* `Edge.eq_of_latest_eq`: entries that turn the mask are settled by what they tell.
* `Sequence.Active`, `Sequence.Compilable.ttlRecords_eq`: the section is settled by the total and by
  the activity of the lines.
* `TtlRecord.Turning`, `turning_of_compileTtl`: no record but the last one repeats a mask.
* `Sequence.Redraw`: a pulse is split, copied or covered by others; `Sequence.Alike`, what the two
  sequences have in common.
* `Builder.ttlSection_settled`: the TTL sections of two builders; `Builder.pieces_leave_no_trace` is
  a case of it.
-/

namespace PulseSequencer

/-! ## Entries that turn the mask -/

namespace Edge

variable {u : Nat} {w : Word} {entries entries' : List (Nat × Word)}

/-- Before the next entry the mask is the one that was told before. -/
lemma latest_of_isChain (h : ((u, w) :: entries).IsChain Turn) (previous : Word) :
    latest u previous entries = previous := by
  cases entries with
  | nil => rfl
  | cons entry rest =>
    obtain ⟨hturn, -⟩ := List.isChain_cons_cons.mp h
    exact if_neg (Nat.not_le_of_lt hturn.1)

/-- The first entry tells the mask in its own tick. -/
lemma latest_head {t : Nat} {m : Word} (h : ((t, m) :: entries).IsChain Turn) :
    latest t w ((t, m) :: entries) = m := by
  rw [latest, if_pos le_rfl, latest_of_isChain h]

/-- If an entry turns the mask, other entries that tell the same have turned it no later. -/
lemma exists_head_le {t : Nat} {m : Word} (h : ((u, w) :: (t, m) :: entries).IsChain Turn)
    (same : latest t w ((t, m) :: entries) = latest t w entries') :
    ∃ t' m' rest, entries' = (t', m') :: rest ∧ t' ≤ t := by
  obtain ⟨hturn, hrest⟩ := List.isChain_cons_cons.mp h
  rw [latest_head hrest] at same
  cases entries' with
  | nil => exact absurd same.symm hturn.2
  | cons entry rest =>
    refine ⟨entry.1, entry.2, rest, rfl, ?_⟩
    by_contra hlater
    rw [latest, if_neg hlater] at same
    exact hturn.2 same.symm

/-- Entries that turn the mask before the end are settled by the masks that they tell. -/
lemma eq_of_latest_eq {total : Nat} (h : ((u, w) :: entries).IsChain Turn)
    (h' : ((u, w) :: entries').IsChain Turn) (hend : ∀ entry ∈ entries, entry.1 < total)
    (hend' : ∀ entry ∈ entries', entry.1 < total)
    (same : ∀ t, u ≤ t → t < total → latest t w entries = latest t w entries') :
    entries = entries' := by
  induction entries generalizing u w entries' with
  | nil =>
    cases entries' with
    | nil => rfl
    | cons entry rest =>
      have hu := (List.isChain_cons_cons.mp h').1.1
      have agree := same entry.1 (Nat.le_of_lt hu) (hend' entry List.mem_cons_self)
      obtain ⟨_, _, _, hnil, -⟩ := exists_head_le h' agree.symm
      cases hnil
  | cons entry rest ih =>
    obtain ⟨t, m⟩ := entry
    obtain ⟨hturn, hrest⟩ := List.isChain_cons_cons.mp h
    -- each list has turned when the other one does, so both turn first in one tick
    have agree := same t (Nat.le_of_lt hturn.1) (hend _ List.mem_cons_self)
    obtain ⟨t', m', rest', rfl, hle⟩ := exists_head_le h agree
    obtain ⟨hturn', hrest'⟩ := List.isChain_cons_cons.mp h'
    have agree' := same t' (Nat.le_of_lt hturn'.1) (hend' _ List.mem_cons_self)
    obtain ⟨_, _, _, heq, hle'⟩ := exists_head_le h' agree'.symm
    cases heq
    cases Nat.le_antisymm hle hle'
    rw [latest_head hrest, latest_head hrest'] at agree
    cases agree
    have later : ∀ x, t ≤ x → x < total → latest x m rest = latest x m rest' := by
      intro x hx hlt
      have tail := same x (Nat.le_trans (Nat.le_of_lt hturn.1) hx) hlt
      rwa [latest, latest, if_pos hx, if_pos hx] at tail
    rw [ih hrest hrest' (List.forall_mem_cons.mp hend).2 (List.forall_mem_cons.mp hend').2 later]

/-! ## The sweep over the edges -/

/-- Before the end, the changes of the mask tell the mask in each tick. -/
lemma latest_changes (edges : List Edge) {total t : Nat} (ht : t < total) :
    latest t (mask edges 0) (changes edges total) = mask edges t := by
  rw [← latest_entries edges ht 0, entries_eq, latest_append_of_lt ht, latest,
    if_pos (Nat.zero_le t)]

/-- The sweep is settled by the masks in the ticks before the end. -/
lemma entries_congr {edges edges' : List Edge} {total : Nat} (htotal : total ≠ 0)
    (same : ∀ t < total, mask edges t = mask edges' t) :
    Edge.entries edges total = Edge.entries edges' total := by
  have hzero : mask edges 0 = mask edges' 0 := same 0 (Nat.pos_of_ne_zero htotal)
  have told : ∀ t, 0 ≤ t → t < total → latest t (mask edges 0) (changes edges total) =
      latest t (mask edges 0) (changes edges' total) := by
    intro t _ ht
    rw [latest_changes edges ht, hzero, latest_changes edges' ht, same t ht]
  rw [entries_eq, entries_eq, ← hzero, eq_of_latest_eq (isChain_changes edges)
    (hzero ▸ isChain_changes edges') (lt_of_mem_changes edges) (lt_of_mem_changes edges') told]

end Edge

/-! ## Sections and activity -/

/-- A pulse of the sequence covers the tick `t` on the line `c`. -/
def Sequence.Active (timing : Timing) (s : Sequence) (c t : Nat) : Prop :=
  ∃ q ∈ s.ttlPulses, q.line.toNat = c ∧ q.Covers timing t

variable {registry : Registry} {timing : Timing} {s s' : Sequence} {total : Nat}

/-- Sequences with the same active ticks have the same mask in each tick. -/
lemma mask_eq_of_active {t : Nat} (same : ∀ c, s.Active timing c t ↔ s'.Active timing c t) :
    Edge.mask (Edge.ofPulses timing s.ttlPulses) t =
      Edge.mask (Edge.ofPulses timing s'.ttlPulses) t := by
  apply BitVec.eq_of_getLsbD_eq
  intro c hc
  rw [Edge.getLsbD_mask _ _ hc, Edge.getLsbD_mask _ _ hc, Bool.eq_iff_iff, Edge.high_iff,
    Edge.high_iff]
  exact same c

namespace Sequence.Compilable

/-- What the compiler makes of the lines alone. -/
lemma ttlRecords_compile (h : s.Compilable registry timing total) :
    Program.ttlRecords <$> compile s registry timing =
      if total = 0 then .error .emptySequence else compileTtl s.ttlPulses timing total := by
  split
  case isTrue hzero => rw [h.compile_of_zero hzero]; rfl
  case isFalse hpos =>
    rw [h.compile_eq, if_neg hpos]
    by_cases hfits : total < Word.count
    · obtain ⟨ttl, httl⟩ := h.exists_compileTtl hfits
      obtain ⟨dds, hdds⟩ := h.exists_compileDds hfits
      rw [httl, hdds]
      exact congrArg Except.ok
        (Program.ttlRecords_ofRecords (ttlSection_of_compileTtl httl hpos) dds total)
    · obtain ⟨tick, -, -, htoo⟩ := h.compileTtl_of_le (Nat.le_of_not_lt hfits)
      rw [htoo]
      rfl

/-- The total and the lines that are active in each tick settle the TTL section. -/
lemma ttlRecords_eq (h : s.Compilable registry timing total)
    (h' : s'.Compilable registry timing total)
    (same : ∀ c t, s.Active timing c t ↔ s'.Active timing c t) :
    Program.ttlRecords <$> compile s registry timing =
      Program.ttlRecords <$> compile s' registry timing := by
  rw [h.ttlRecords_compile, h'.ttlRecords_compile]
  split
  case isTrue => rfl
  case isFalse hpos =>
    rw [h.compileTtl_eq, h'.compileTtl_eq,
      Edge.entries_congr hpos fun t _ => mask_eq_of_active fun c => same c t]

end Sequence.Compilable

/-! ## Records that turn the mask -/

/-- Each record but the last one has another mask than the record before it. -/
def TtlRecord.Turning (records : List TtlRecord) : Prop :=
  records.dropLast.IsChain fun a b => a.mask ≠ b.mask

/-- Every record of a compiled section but the last one turns the mask. -/
lemma turning_of_compileTtl {pulses : List TtlPulse} {ttl : List TtlRecord}
    (h : compileTtl pulses timing total = .ok ttl) : TtlRecord.Turning ttl := by
  have masks : (Edge.entries (Edge.ofPulses timing pulses) total).map Prod.snd =
      ttl.map TtlRecord.mask := by
    rw [← List.forall₂_eq_eq_eq, List.forall₂_map_left_iff, List.forall₂_map_right_iff]
    exact (compileTtl_written h).imp fun _ _ written => written.2.symm
  have chain := (@Edge.isChain_changes (Edge.ofPulses timing pulses) total).imp
    fun _ _ (hturn : Edge.Turn _ _) => hturn.2
  rw [← List.isChain_map Prod.snd] at chain
  rw [TtlRecord.Turning, ← List.isChain_map TtlRecord.mask, List.map_dropLast,
    ← masks, Edge.entries_eq, List.map_append, List.map_singleton,
    List.dropLast_concat]
  exact chain

/-! ## Pulses that are drawn in another way -/

namespace Sequence

/-- A pulse of the sequence holds the line `c` high at a time. -/
def High (s : Sequence) (c time : Nat) : Prop :=
  ∃ q ∈ s.ttlPulses, q.line.toNat = c ∧ q.start ≤ time ∧ time < q.finish

/-- A sequence is drawn in another way. -/
inductive Redraw (s s' : Sequence) : Prop where
  /-- A pulse is split in two. -/
  | split {rest : Sequence} {line : UInt8} {start first second : Nat} :
    s.Similar (rest.append [.ttl ⟨line, start, first + second⟩]) →
    s'.Similar (rest.append [.ttl ⟨line, start, first⟩, .ttl ⟨line, start + first, second⟩]) →
    Redraw s s'
  /-- A pulse is added once more. -/
  | copy {p : TtlPulse} : p ∈ s.ttlPulses → s'.Similar (s.append [.ttl p]) → Redraw s s'
  /-- A pulse is added on a line that is high all the while. -/
  | cover {p : TtlPulse} :
    0 < p.length → (∀ time, p.start ≤ time → time < p.finish → s.High p.line.toNat time) →
    s'.Similar (s.append [.ttl p]) → Redraw s s'

/-- Two sequences are equally long, and their lines are high at the same times. -/
structure Alike (s s' : Sequence) : Prop where
  high : ∀ c time, s.High c time ↔ s'.High c time
  declaredLength : s.declaredLength = s'.declaredLength

/-- A line is high in a longer sequence if it was before or is in one of the new pulses. -/
lemma high_append {events : List Event} {c time : Nat} :
    (s.append events).High c time ↔ s.High c time ∨
      ∃ q ∈ events.filterMap Event.ttl?, q.line.toNat = c ∧ q.start ≤ time ∧ time < q.finish := by
  have pulses : (s.append events).ttlPulses = s.ttlPulses ++ events.filterMap Event.ttl? :=
    List.filterMap_append
  simp only [High, pulses, List.mem_append, or_and_right, exists_or]

namespace Alike

variable {s'' : Sequence}

/-- Likeness is reflexive. -/
lemma refl (s : Sequence) : s.Alike s := ⟨fun _ _ => Iff.rfl, rfl⟩

/-- Likeness is symmetric. -/
lemma symm (h : s.Alike s') : s'.Alike s :=
  ⟨fun c time => (h.high c time).symm, h.declaredLength.symm⟩

/-- Likeness is transitive. -/
lemma trans (h : s.Alike s') (h' : s'.Alike s'') : s.Alike s'' :=
  ⟨fun c time => (h.high c time).trans (h'.high c time),
    h.declaredLength.trans h'.declaredLength⟩

/-- The order of entries does not matter to likeness. -/
lemma of_similar (h : s.Similar s') : s.Alike s' :=
  ⟨fun _ _ => by simp only [High, h.ttlPulses.mem_iff], h.declaredLength_eq⟩

/-- Another pulse changes nothing if it is high only where its line is, and ends within the
length. -/
lemma append {p : TtlPulse}
    (hhigh : ∀ time, p.start ≤ time → time < p.finish → s.High p.line.toNat time)
    (hfinish : p.finish ≤ s.declaredLength) : s.Alike (s.append [.ttl p]) := by
  constructor
  case high =>
    intro c time
    rw [high_append]
    refine ⟨.inl, ?_⟩
    rintro (h | ⟨q, hq, rfl, hstart, hend⟩)
    · exact h
    · cases List.mem_singleton.mp hq
      exact hhigh time hstart hend
  case declaredLength =>
    refine eq_of_forall_ge_iff fun n => ?_
    rw [declaredLength_append_le, List.forall_mem_singleton]
    exact ⟨fun h => ⟨h, hfinish.trans h⟩, And.left⟩

/-- A line is high while one of the two parts of a pulse is. -/
lemma split (s : Sequence) (line : UInt8) (start first second : Nat) :
    (s.append [.ttl ⟨line, start, first + second⟩]).Alike
      (s.append [.ttl ⟨line, start, first⟩, .ttl ⟨line, start + first, second⟩]) := by
  constructor
  case high =>
    intro c time
    rw [high_append, high_append]
    refine or_congr_right ?_
    simp only [List.filterMap_cons, Event.ttl?, List.filterMap_nil, List.exists_mem_cons_iff,
      List.not_mem_nil, false_and, exists_false, or_false, TtlPulse.finish, ← and_or_left]
    refine and_congr_right fun _ => ?_
    omega
  case declaredLength =>
    refine eq_of_forall_ge_iff fun n => ?_
    rw [declaredLength_append_le, declaredLength_append_le, List.forall_mem_singleton,
      List.forall_mem_cons, List.forall_mem_singleton]
    refine and_congr_right fun _ => ?_
    show start + (first + second) ≤ n ↔ start + first ≤ n ∧ start + first + second ≤ n
    omega

/-- A tick is active if the line is high when the tick ends. -/
lemma active_iff_high (hres : timing.resolution ≠ 0) {c t : Nat} :
    s.Active timing c t ↔ s.High c ((t + 1) * timing.resolution - 1) := by
  have hpos := Nat.pos_of_ne_zero hres
  have begun (q : TtlPulse) : timing.ticks q.start ≤ t ↔ q.start < (t + 1) * timing.resolution :=
    Nat.lt_succ_iff.symm.trans (Nat.div_lt_iff_lt_mul hpos)
  have ended (q : TtlPulse) : t < timing.ticks q.finish ↔ (t + 1) * timing.resolution ≤ q.finish :=
    Nat.le_div_iff_mul_le hpos
  have hlast : 0 < (t + 1) * timing.resolution := Nat.mul_pos t.succ_pos hpos
  have covers (q : TtlPulse) : q.Covers timing t ↔
      q.start ≤ (t + 1) * timing.resolution - 1 ∧ (t + 1) * timing.resolution - 1 < q.finish := by
    rw [TtlPulse.Covers, begun, ended]
    omega
  simp only [Active, High, covers]

/-- Sequences that are alike have the same active ticks. -/
lemma active (h : s.Alike s') (hres : timing.resolution ≠ 0) (c t : Nat) :
    s.Active timing c t ↔ s'.Active timing c t := by
  rw [active_iff_high hres, active_iff_high hres, h.high]

end Alike

/-- A sequence that is drawn in another way is like the old one. -/
lemma Redraw.alike (h : s.Redraw s') : s.Alike s' := by
  cases h with
  | split h h' =>
    exact (Alike.of_similar h).trans ((Alike.split ..).trans (Alike.of_similar h').symm)
  | copy hp h' =>
    have again := Alike.append (fun _ hstart hend => ⟨_, hp, rfl, hstart, hend⟩)
      (finish_le_declaredLength (mem_ttlPulses.mp hp))
    exact again.trans (Alike.of_similar h').symm
  | @cover p hpos hhigh h' =>
    -- the line is high just before the pulse ends
    obtain ⟨q, hq, -, -, hend⟩ := hhigh (p.finish - 1) (by unfold TtlPulse.finish; omega)
      (by unfold TtlPulse.finish; omega)
    have hwithin : q.finish ≤ s.declaredLength := finish_le_declaredLength (mem_ttlPulses.mp hq)
    exact (Alike.append hhigh (by omega)).trans (Alike.of_similar h').symm

/-- Sequences that are drawn in other ways, again and again, are alike. -/
lemma Alike.of_eqvGen (h : Relation.EqvGen Redraw s s') : s.Alike s' := by
  induction h with
  | rel _ _ h => exact h.alike
  | refl s => exact .refl s
  | symm _ _ _ ih => exact ih.symm
  | trans _ _ _ _ _ ih ih' => exact ih.trans ih'

end Sequence

/-! ## The sections of builders -/

namespace Builder

variable {config : Configuration} {requests requests' : List Request}

/-- The TTL section that a builder makes of its sequence. -/
def ttlSection (b : Builder) : Except Error (List TtlRecord) := Program.ttlRecords <$> b.compile

/-- The TTL section of a builder is that of its sequence. -/
lemma ttlSection_of_run (hs : ((new registry timing).run requests).sequence = some s) :
    ((new registry timing).run requests).ttlSection =
      Program.ttlRecords <$> PulseSequencer.compile s registry timing := by
  rw [run_eq hs]
  rfl

/-- Two sequences of builders of an accepted configuration. If they have the same total and their
lines are active in the same ticks, the compiler refuses both in the same way or makes one TTL
section of both. So it does if one sequence is the other one, drawn in another way. In that section
the ticks grow, and no record but the last one repeats the mask before it. -/
theorem ttlSection_settled (hregistry : Registry.ofConfiguration config = .ok registry)
    (hs : ((new registry config.timing).run requests).sequence = some s)
    (hs' : ((new registry config.timing).run requests').sequence = some s') :
    (s.totalTicks config.timing = s'.totalTicks config.timing →
      (∀ c t, s.Active config.timing c t ↔ s'.Active config.timing c t) →
      ((new registry config.timing).run requests).ttlSection =
        ((new registry config.timing).run requests').ttlSection) ∧
    (Relation.EqvGen Sequence.Redraw s s' →
      ((new registry config.timing).run requests).ttlSection =
        ((new registry config.timing).run requests').ttlSection) ∧
    ∀ p, ((new registry config.timing).run requests).compile = .ok p →
      TtlRecord.Sweep p.totalTicks p.ttlRecords ∧ TtlRecord.Turning p.ttlRecords := by
  have compilable := compilable_of_run hregistry requests hs
  have compilable' := compilable_of_run hregistry requests' hs'
  have settled : s.totalTicks config.timing = s'.totalTicks config.timing →
      (∀ c t, s.Active config.timing c t ↔ s'.Active config.timing c t) →
      ((new registry config.timing).run requests).ttlSection =
        ((new registry config.timing).run requests').ttlSection := by
    intro htotal active
    rw [compilable.total, compilable'.total] at htotal
    rw [← Except.ok.inj htotal] at compilable'
    rw [ttlSection_of_run hs, ttlSection_of_run hs']
    exact compilable.ttlRecords_eq compilable' active
  refine ⟨settled, fun redrawn => ?_, fun p hp => ?_⟩
  · -- in nanoseconds both are as long and high at the same times, hence in ticks as well
    have alike := Sequence.Alike.of_eqvGen redrawn
    refine settled ?_ (alike.active (resolution_ne_of_ofConfiguration hregistry))
    rw [Sequence.totalTicks, Sequence.totalTicks, alike.declaredLength]
  · rw [run_eq hs] at hp
    obtain ⟨ttl, dds, compiled⟩ := Compiled.of_compile hp
    rw [compiled.ttlRecords]
    exact ⟨sweep_of_compileTtl compiled.ttlSection compiled.total_ne,
      turning_of_compileTtl compiled.ttlSection⟩

/-- A pulse of the shutter in one piece. -/
def wholePulse : List Request := [.newSequence, .ttl ⟨"shutter", 0, 600⟩]

/-- The pulse in two pieces. A third one is high in between, and the first one comes again. -/
def pulseInPieces : List Request :=
  [.newSequence, .ttls [⟨"shutter", 0, 210⟩, ⟨"shutter", 210, 390⟩, ⟨"shutter", 50, 300⟩],
    .ttl ⟨"shutter", 0, 210⟩]

/-- The whole pulse is drawn in other ways to give the pieces. -/
lemma redraw_pulseInPieces : Relation.EqvGen Sequence.Redraw ⟨[.ttl ⟨4, 0, 600⟩], 0⟩
    ⟨[.ttl ⟨4, 0, 210⟩, .ttl ⟨4, 210, 390⟩, .ttl ⟨4, 50, 300⟩, .ttl ⟨4, 0, 210⟩], 0⟩ := by
  have split : Sequence.Redraw ⟨[.ttl ⟨4, 0, 600⟩], 0⟩
      ⟨[.ttl ⟨4, 0, 210⟩, .ttl ⟨4, 210, 390⟩], 0⟩ :=
    @Sequence.Redraw.split _ _ .empty 4 0 210 390 (.refl _) (.refl _)
  have cover : Sequence.Redraw ⟨[.ttl ⟨4, 0, 210⟩, .ttl ⟨4, 210, 390⟩], 0⟩
      ⟨[.ttl ⟨4, 0, 210⟩, .ttl ⟨4, 210, 390⟩, .ttl ⟨4, 50, 300⟩], 0⟩ := by
    refine @Sequence.Redraw.cover _ _ ⟨4, 50, 300⟩ (by decide)
      (fun time _ (hend : time < 350) => ?_) (.refl _)
    by_cases hfirst : time < 210
    · exact ⟨⟨4, 0, 210⟩, by simp [Sequence.ttlPulses, Event.ttl?], rfl, Nat.zero_le _, hfirst⟩
    · refine ⟨⟨4, 210, 390⟩, by simp [Sequence.ttlPulses, Event.ttl?], rfl, ?_, ?_⟩
      · exact Nat.le_of_not_lt hfirst
      · show time < 600
        omega
  have copy : Sequence.Redraw ⟨[.ttl ⟨4, 0, 210⟩, .ttl ⟨4, 210, 390⟩, .ttl ⟨4, 50, 300⟩], 0⟩
      ⟨[.ttl ⟨4, 0, 210⟩, .ttl ⟨4, 210, 390⟩, .ttl ⟨4, 50, 300⟩, .ttl ⟨4, 0, 210⟩], 0⟩ :=
    .copy List.mem_cons_self (.refl _)
  exact .trans _ _ _ (.rel _ _ split) (.trans _ _ _ (.rel _ _ cover) (.rel _ _ copy))

/-- However the pulse is drawn, its TTL section is the same. -/
theorem pieces_leave_no_trace : ∃ s s' p,
    Registry.ofConfiguration repumpConfiguration = .ok repumpRegistry ∧
    ((new repumpRegistry repumpConfiguration.timing).run wholePulse).sequence = some s ∧
    ((new repumpRegistry repumpConfiguration.timing).run pulseInPieces).sequence = some s' ∧
    Relation.EqvGen Sequence.Redraw s s' ∧
    ((new repumpRegistry repumpConfiguration.timing).run wholePulse).compile = .ok p ∧
    ((new repumpRegistry repumpConfiguration.timing).run pulseInPieces).ttlSection =
      .ok p.ttlRecords ∧
    TtlRecord.Sweep 15 p.ttlRecords ∧ TtlRecord.Turning p.ttlRecords := by
  have hs : ((new repumpRegistry repumpConfiguration.timing).run wholePulse).sequence =
      some ⟨[.ttl ⟨4, 0, 600⟩], 0⟩ := rfl
  obtain ⟨p, hp, htotal⟩ :
      ∃ p, ((new repumpRegistry repumpConfiguration.timing).run wholePulse).compile = .ok p ∧
        p.totalTicks = 15 :=
    exists_compile_of_run ofConfiguration_repump wholePulse hs (by decide) (by decide)
  have hs' : ((new repumpRegistry repumpConfiguration.timing).run pulseInPieces).sequence =
      some ⟨[.ttl ⟨4, 0, 210⟩, .ttl ⟨4, 210, 390⟩, .ttl ⟨4, 50, 300⟩, .ttl ⟨4, 0, 210⟩], 0⟩ := rfl
  obtain ⟨-, redrawn, shape⟩ := ttlSection_settled ofConfiguration_repump hs hs'
  have same := redrawn redraw_pulseInPieces
  rw [ttlSection, hp] at same
  obtain ⟨sweep, turning⟩ := shape p hp
  exact ⟨_, _, p, ofConfiguration_repump, hs, hs', redraw_pulseInPieces, hp, same.symm,
    htotal ▸ sweep, turning⟩

end Builder

end PulseSequencer

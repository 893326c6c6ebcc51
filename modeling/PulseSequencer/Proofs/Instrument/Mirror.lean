import PulseSequencer.Proofs.Counting
import PulseSequencer.Proofs.Instrument.Effect
import PulseSequencer.Proofs.Line

/-!
# The board as the host keeps it

While a board is attached its wires show what the host keeps: the state of the lines, the counting
mode and the collection time. A switched line changes two bits, an attachment writes whole words,
and what an operation leaves that lost the board half way is set right by the next attachment.

* `Host.Mirrors`: the wires show the host's state; `Host.Shows` says it bit by bit.
* `Host.Does.mirrors`, `Host.mirrors_initialising`: a task keeps this, and an attachment brings it
  about.
* `Instrument.Synced`: the invariant, which says nothing of the wires of a detached board.
* `Instrument.mirrors_of_attached`: it holds in every run in which operations fail only because the
  board is lost.
-/

namespace PulseSequencer

namespace Control

/-- The counting mode stands in bit 0. -/
lemma getLsbD_counting (w : Word) : (w &&& counting).getLsbD 0 = w.getLsbD 0 := by
  rw [BitVec.getLsbD_and]
  exact Bool.and_true _

end Control

namespace Counting

/-- Bit 0 is set in differential mode. -/
lemma getLsbD_bits (mode : CollectionMode) : mode.bits.getLsbD 0 = true ↔ mode = .differential := by
  cases mode <;> decide

/-- A collection time that is kept leaves the mode as it is. -/
lemma mode_of_store {c c' : Counting} {seconds : Float} {mode : CollectionMode}
    (h : c.store seconds mode = .ok c') : c'.mode = c.mode := by
  obtain ⟨_, -, h⟩ := Result.bind_eq_ok.mp h
  cases h
  rfl

/-- The collection time of differential mode is not the one that the board takes. -/
lemma rateWord_of_store {c c' : Counting} {seconds : Float}
    (h : c.store seconds .differential = .ok c') : c'.rateWord = c.rateWord := by
  obtain ⟨_, -, h⟩ := Result.bind_eq_ok.mp h
  cases h
  rfl

end Counting

namespace Host

/-- The wires show what the host keeps: the words of the lines, bit 0 of the control wire set in
differential mode, and the collection time of normal mode. -/
structure Mirrors (h : Host) (wires : Address → Word) : Prop where
  lines : h.lines.register = .ok ⟨wires Endpoint.manual, wires Endpoint.level⟩
  mode : (wires Endpoint.control).getLsbD 0 = true ↔ h.counting.mode = .differential
  rate : wires Endpoint.countRate = h.counting.rateWord

/-- Bit by bit: the manual bit of a line is set if the line is held, and the level bit if it is held
at a level that is high at the output, or if it is driven by the sequencer and inverted. The
collection time is shown in milliseconds, rounded. -/
structure Shows (h : Host) (wires : Address → Word) : Prop where
  manual : ∀ index : UInt8, index.toNat < lineLimit →
    ((wires Endpoint.manual).getLsbD index.toNat = true ↔
      ∃ s, h.lines index = some s ∧ s.manual = true)
  level : ∀ index : UInt8, index.toNat < lineLimit →
    ((wires Endpoint.level).getLsbD index.toNat = true ↔
      ∃ s, h.lines index = some s ∧
        (s.manual = true ∧ s.level ≠ s.manualInverted ∨ s.manual = false ∧ s.autoInverted = true))
  milliseconds : RoundsTo (h.counting.times.normal * 1000.0) (wires Endpoint.countRate)

variable {h h' : Host} {wires : Address → Word}

/-- The words say so bit by bit. -/
lemma Mirrors.shows (hm : h.Mirrors wires) : h.Shows wires := by
  constructor
  case manual =>
    intro index hindex
    rw [(LineTable.getLsbD_register hm.lines hindex).1]
    cases h.lines index <;> simp
  case level =>
    intro index hindex
    rw [(LineTable.getLsbD_register hm.lines hindex).2]
    cases h.lines index with
    | none => simp
    | some s =>
      obtain ⟨manual, level, manualInverted, autoInverted⟩ := s
      cases manual <;> simp [LineState.levelBit]
  case milliseconds =>
    rw [hm.rate]
    exact roundsTo_roundToWord _

/-- The fields that show what the host keeps. -/
def keptFields : List (Address × Word) :=
  [(Endpoint.manual, Word.all), (Endpoint.level, Word.all), (Endpoint.control, Control.counting),
    (Endpoint.countRate, Word.all)]

/-- Writes to other fields leave the wires showing what the host keeps. -/
lemma Mirrors.of_writeOnly (hm : h.Mirrors wires) {fields : List (Address × Word)}
    {ps : List Primitive} (hps : Primitive.WriteOnly fields ps)
    (hapart : Primitive.Apart fields keptFields) : h.Mirrors (Primitive.writeAll wires ps) := by
  have hmanual : (Endpoint.manual, Word.all) ∈ keptFields := by simp [keptFields]
  have hlevel : (Endpoint.level, Word.all) ∈ keptFields := by simp [keptFields]
  have hmode : (Endpoint.control, Control.counting) ∈ keptFields := by simp [keptFields]
  have hrate : (Endpoint.countRate, Word.all) ∈ keptFields := by simp [keptFields]
  refine ⟨?_, ?_, ?_⟩
  · rw [hps.word_eq hapart hmanual, hps.word_eq hapart hlevel]
    exact hm.lines
  · rw [← Control.getLsbD_counting, hps.field_eq hapart hmode, Control.getLsbD_counting]
    exact hm.mode
  · rw [hps.word_eq hapart hrate]
    exact hm.rate

/-! ## Operations that write it -/

/-- To write a single bit under its mask is to assign it. -/
lemma masked_bitIf (w : Word) (index : UInt8) (b : Bool) :
    w.masked (bitIf index b) (BitVec.twoPow 32 index.toNat) = w.assign index.toNat b := by
  apply BitVec.eq_of_getLsbD_eq
  intro c hc
  rw [Word.getLsbD_masked, Word.getLsbD_assign _ _ _ hc, BitVec.getLsbD_twoPow]
  by_cases heq : c = index.toNat
  · subst heq
    cases b <;> simp [bitIf, hc]
  · simp [heq, Ne.symm heq]

/-- To switch a line on the board is to change it as the host does. -/
lemma Mirrors.switching (hm : h.Mirrors wires)
    (hlines : ∀ index s, h.lines index = some s → index.toNat < lineLimit) {index : UInt8}
    (hindex : index.toNat < lineLimit) (line : LineState) :
    Mirrors { h with lines := h.lines.insert index line }
      (Primitive.writeAll wires (Host.switching index line)) := by
  have hlevel : Endpoint.level ≠ Endpoint.manual := by decide
  have hcontrol : Endpoint.control ≠ Endpoint.manual ∧ Endpoint.control ≠ Endpoint.level := by
    decide
  have hrate : Endpoint.countRate ≠ Endpoint.manual ∧ Endpoint.countRate ≠ Endpoint.level := by
    decide
  refine ⟨?_, ?_, ?_⟩
  · rw [LineTable.register_insert hm.lines hlines hindex]
    simp [Host.switching, masked_bitIf, hlevel, hlevel.symm]
  · simpa [Host.switching, hcontrol] using hm.mode
  · simpa [Host.switching, hrate] using hm.rate

/-- To write the counting setup to the board is to show it. -/
lemma mirrors_applying {c : Counting}
    (hlines : h.lines.register = .ok ⟨wires Endpoint.manual, wires Endpoint.level⟩) :
    Mirrors { h with counting := c } (Primitive.writeAll wires c.applying) := by
  have hmanual : Endpoint.manual ≠ Endpoint.control ∧ Endpoint.manual ≠ Endpoint.countRate := by
    decide
  have hlevel : Endpoint.level ≠ Endpoint.control ∧ Endpoint.level ≠ Endpoint.countRate := by
    decide
  have hcontrol : Endpoint.control ≠ Endpoint.countRate := by decide
  refine ⟨?_, ?_, ?_⟩
  · simpa [Counting.applying, hmanual, hlevel] using hlines
  · have hfield : Primitive.writeAll wires c.applying Endpoint.control &&& Control.counting =
        c.mode.bits &&& Control.counting := by
      simp [Counting.applying, hcontrol, Word.masked_and_self]
    rw [← Control.getLsbD_counting, hfield, Control.getLsbD_counting]
    exact Counting.getLsbD_bits c.mode
  · simp [Counting.applying]

/-- Whatever a request to the counting does keeps the board in the host's state. -/
lemma Mirrors.counting_does (hm : h.Mirrors wires) {request : Counting.Request}
    {ps : List Primitive} {c : Counting} (hdoes : h.counting.Does request ps c) :
    Mirrors { h with counting := c } (Primitive.writeAll wires ps) := by
  cases hdoes with
  | apply => exact mirrors_applying hm.lines
  | setMode mode =>
    rw [Primitive.writeAll_append]
    exact mirrors_applying hm.lines
  | setNormalTime hstore =>
    have hmanual : Endpoint.manual ≠ Endpoint.countRate := by decide
    have hlevel : Endpoint.level ≠ Endpoint.countRate := by decide
    have hcontrol : Endpoint.control ≠ Endpoint.countRate := by decide
    refine ⟨?_, ?_, ?_⟩
    · simpa [hmanual, hlevel] using hm.lines
    · simpa [hcontrol, Counting.mode_of_store hstore] using hm.mode
    · simp
  | drain _ hps =>
    rw [Primitive.writeAll_append]
    exact (hm.of_writeOnly (Wire.writeOnly_asking _) (by decide)).of_writeOnly hps.writeOnly
      (by decide)
  | resetFifo => exact hm

/-- Whatever a task does keeps the board in the host's state. -/
theorem Does.mirrors {task : Task} {ps : List Primitive} (hdoes : h.Does task ps h')
    (hm : h.Mirrors wires) (hlines : ∀ index s, h.lines index = some s → index.toNat < lineLimit) :
    h'.Mirrors (Primitive.writeAll wires ps) := by
  cases hdoes with
  | sequencer hdoes =>
    have hshown := hm.of_writeOnly hdoes.writeOnly (by decide)
    exact ⟨hshown.lines, hshown.mode, hshown.rate⟩
  | counting hdoes => exact hm.counting_does hdoes
  | readout select => exact hm.of_writeOnly (Wire.writeOnly_asking select) (by decide)
  | switchLine hindex update => exact hm.switching hlines hindex _
  | @timetags ps hps =>
    change h.Mirrors (Primitive.writeAll wires ps)
    exact hm.of_writeOnly hps.writeOnly (by decide)
  | resetTimetags => exact hm

/-- The initialisation of a board brings it to the host's state, whatever its wires were. -/
theorem mirrors_initialising {r : LineRegister} (hr : h.lines.register = .ok r) :
    Mirrors { h with controller := .idle } (Primitive.writeAll wires (h.initialising r)) := by
  have hlevel : Endpoint.level ≠ Endpoint.manual := by decide
  rw [initialising, Primitive.writeAll_append, Primitive.writeAll_append]
  refine mirrors_applying (h := { h with controller := .idle }) (c := h.counting) ?_
  simp [hr, hlevel, hlevel.symm]

end Host

namespace Instrument

/-- The event lets nothing else go wrong than that the board is lost. -/
def Event.LosesOnly : Event → Prop
  | .bus (.expect (some f)) => f.failure = .reported .disconnected
  | _ => True

/-- The host keeps lines of channels only; while a board is attached it shows the host's state and
nothing on it waits for a commit. Nothing else can go wrong than that the board is lost. -/
structure Synced (registry : Registry) (l : Link Host) : Prop where
  losing : l.bus.Losing
  lines : ∀ index s, l.state.lines index = some s → ∃ c ∈ registry.channels, c.index = index
  mirrors : l.attached = true → l.state.Mirrors l.bus.board.wires
  settled : l.attached = true → l.bus.board.Settled

variable {registry : Registry} {l l' : Link Host}

/-- No task adds a line that is not that of a channel. -/
lemma lines_of_does {task : Host.Task} (hknown : task.Within registry.HasLine) {h h' : Host}
    {ps : List Primitive} (hdoes : h.Does task ps h')
    (hlines : ∀ index s, h.lines index = some s → ∃ c ∈ registry.channels, c.index = index) :
    ∀ index s, h'.lines index = some s → ∃ c ∈ registry.channels, c.index = index := by
  cases hdoes with
  | @switchLine index _ update =>
    obtain ⟨name, hname⟩ := hknown
    intro other s hs
    by_cases heq : other = index
    · rw [heq]
      exact index_of_hardwareIndex hname
    · exact hlines other s ((if_neg heq).symm.trans hs)
  | _ => exact hlines

/-- Whatever happens to the link keeps it in the host's state. -/
lemma Synced.effect (hl : Synced registry l) (h : Effect registry.HasLine l l')
    (hregistry : ∀ c ∈ registry.channels, c.index.toNat < lineLimit) : Synced registry l' := by
  have hlimit : ∀ index s, l.state.lines index = some s → index.toNat < lineLimit := by
    intro index s hs
    obtain ⟨c, hc, rfl⟩ := hl.lines index s hs
    exact hregistry c hc
  cases h with
  | nothing hheld hattached =>
    have hstate : l'.state = l.state := congrArg Held.state hheld
    have hbus : l'.bus = l.bus := congrArg Held.bus hheld
    refine ⟨hbus ▸ hl.losing, hstate ▸ hl.lines, fun h => ?_, fun h => ?_⟩
    · rw [hstate, hbus]
      exact hl.mirrors (hattached h)
    · rw [hbus]
      exact hl.settled (hattached h)
  | stored hstore hstate hbus hattached =>
    refine ⟨hbus ▸ hl.losing, hstate ▸ hl.lines, fun h => ?_, fun h => ?_⟩
    · have hm := hl.mirrors (hattached ▸ h)
      rw [hstate, hbus]
      refine ⟨hm.lines, ?_, ?_⟩
      · rw [Counting.mode_of_store hstore]
        exact hm.mode
      · exact hm.rate.trans (Counting.rateWord_of_store hstore).symm
    · rw [hbus]
      exact hl.settled (hattached ▸ h)
  | @attached r _ _ hr hstate hcarries =>
    -- whatever waited on the board, the commits of the initialisation are done with it
    have hsettled : (l.bus.board.replay (l.state.initialising r)).Settled :=
      Board.settled_replay false nofun rfl
    refine ⟨hcarries.losing hl.losing, hstate ▸ hl.lines, fun _ => ?_, fun _ => ?_⟩
    · rw [hstate, hcarries.board, Board.wires_replay hsettled]
      exact Host.mirrors_initialising hr
    · rw [hcarries.board]
      exact hsettled
  | @did task ps hknown hattached hdoes hcarries =>
    have hsettled : (l.bus.board.replay ps).Settled :=
      (hl.settled hattached).replay hdoes.settles
    refine ⟨hcarries.losing hl.losing, lines_of_does hknown hdoes hl.lines, fun _ => ?_,
      fun _ => ?_⟩
    · rw [hcarries.board, (hl.settled hattached).wires_replay hsettled]
      exact hdoes.mirrors (hl.mirrors hattached) hlimit
    · rw [hcarries.board]
      exact hsettled
  | failed hfails hleft hattached =>
    obtain ⟨rfl, hlosing⟩ := hfails.disconnected hl.losing
    -- the board was lost, and with it what the operation had done
    have hdetached : l'.attached ≠ true := fun h => Bool.noConfusion (hattached h).2
    refine ⟨hlosing, hleft.lines ▸ hl.lines, fun h => absurd h hdetached,
      fun h => absurd h hdetached⟩

/-- An event that can at most lose the board keeps host and board in step. -/
lemma Synced.event {i : Instrument} (hi : Synced i.registry i.link) {e : Event} (he : e.LosesOnly)
    (hregistry : ∀ c ∈ i.registry.channels, c.index.toNat < lineLimit) :
    Synced i.registry (e.apply i).link ∧ (e.apply i).registry = i.registry := by
  cases e with
  | command c => exact ⟨hi.effect (c.affects i).link hregistry, (c.affects i).registry⟩
  | bus b =>
    refine ⟨⟨?_, hi.lines, ?_, ?_⟩, rfl⟩
    · cases b with
      | expect fault =>
        intro f hf
        cases hf
        exact he
      | _ => exact hi.losing
    · cases b <;> exact hi.mirrors
    · cases b <;> exact hi.settled

/-- Events that can at most lose the board keep host and board in step. -/
lemma Synced.run {i : Instrument} (hi : Synced i.registry i.link) {events : List Event}
    (hevents : ∀ e ∈ events, e.LosesOnly)
    (hregistry : ∀ c ∈ i.registry.channels, c.index.toNat < lineLimit) :
    Synced i.registry (i.run events).link := by
  induction events generalizing i with
  | nil => exact hi
  | cons e events ih =>
    obtain ⟨hstep, hsame⟩ := hi.event (hevents e List.mem_cons_self) hregistry
    rw [← hsame] at hstep hregistry ⊢
    exact ih hstep (fun e' he' => hevents e' (List.mem_cons_of_mem e he')) hregistry

/-- An instrument that was never attached is in step. -/
lemma synced_unopened (config : Configuration) (registry : Registry) (id : String) {bus : Bus}
    (hbus : bus.Losing) : Synced registry (unopened config registry id bus).link :=
  ⟨hbus, fun _ _ => index_of_initialLines, nofun, nofun⟩

/-- The channels of a registry are those of its configuration. -/
lemma channels_of_ofConfiguration {config : Configuration} {registry : Registry}
    (h : Registry.ofConfiguration config = .ok registry) :
    ∀ c ∈ registry.channels, c ∈ config.channels :=
  fun _ => (tables_of_ofConfiguration h).1.mem_iff.mp

/-- In every run of an opened instrument in which operations fail only because the board is lost,
whenever a board is attached it shows the host's state, word by word and bit by bit, the bits of
lines without a channel are clear, and nothing on it waits for a commit. -/
theorem mirrors_of_attached {config : Configuration} {id : String} {bus : Bus} {i : Instrument}
    (hopened : opened config id bus = .ok i) (hbus : bus.Losing) {events : List Event}
    (hevents : ∀ e ∈ events, e.LosesOnly) (hattached : (i.run events).link.attached = true) :
    (i.run events).host.Mirrors (i.run events).board.wires ∧
      (i.run events).host.Shows (i.run events).board.wires ∧
      (∀ index : UInt8, index.toNat < lineLimit → (∀ c ∈ config.channels, c.index ≠ index) →
        ((i.run events).board.wires Endpoint.manual).getLsbD index.toNat = false ∧
          ((i.run events).board.wires Endpoint.level).getLsbD index.toNat = false) ∧
      (i.run events).board.Settled := by
  obtain ⟨registry, hregistry, rfl⟩ := eq_connect_of_opened hopened
  have hlimit := index_lt_of_ofConfiguration hregistry
  have hunopened : Synced (unopened config registry id bus).registry
      (unopened config registry id bus).link := synced_unopened config registry id hbus
  -- the first attempt to connect is one more command
  have hsynced : Synced registry
      ((unopened config registry id bus).run (.command .connect :: events)).link :=
    hunopened.run (List.forall_mem_cons.mpr ⟨trivial, hevents⟩) hlimit
  have hm := hsynced.mirrors hattached
  refine ⟨hm, hm.shows, fun index hindex hunused => ?_, hsynced.settled hattached⟩
  have hnone : ((after connect (unopened config registry id bus)).run events).host.lines index =
      none := by
    refine Option.eq_none_iff_forall_ne_some.mpr fun s hs => ?_
    obtain ⟨c, hc, rfl⟩ := hsynced.lines index s hs
    exact hunused c (channels_of_ofConfiguration hregistry c hc) rfl
  obtain ⟨hmanual, hlevel⟩ := LineTable.getLsbD_register hm.lines hindex
  change _ = Option.elim (((after connect (unopened config registry id bus)).run events).host.lines
    index) _ _ at hmanual hlevel
  rw [hnone] at hmanual hlevel
  exact ⟨hmanual, hlevel⟩

/-! ## A board that is lost and found -/

/-- A board with one channel, on line 3. -/
def lampConfiguration : Configuration :=
  { Configuration.default with channels := [.auto "lamp" 3], dds := [] }

/-- The board is lost after the first operation of a switch, and attached again. -/
def lostInSwitch : List Event :=
  [.bus (.expect (some ⟨1, .reported .disconnected⟩)),
    .command (.switchManual none "lamp" (some true)), .command .connect]

set_option maxRecDepth 20000 in
/-- The instrument of the lamp is opened with an attempt to connect. -/
lemma opened_lamp : opened lampConfiguration "board" (.new .new) =
    .ok (after connect
      (unopened lampConfiguration ⟨[.auto "lamp" 3], []⟩ "board" (.new .new))) := by
  have hvalid : lampConfiguration.validate = .ok () := rfl
  have hregistry : Registry.ofConfiguration lampConfiguration = .ok ⟨[.auto "lamp" 3], []⟩ :=
    ofConfiguration_of_ordered hvalid (List.pairwise_singleton _ _)
  rw [opened, hregistry]
  rfl

set_option maxRecDepth 20000 in
/-- After a switch that lost the board half way the next attachment sets it right. -/
theorem mirrors_after_loss :
    ∃ i, opened lampConfiguration "board" (.new .new) = .ok i ∧ (Bus.new .new).Losing ∧
      (∀ e ∈ lostInSwitch, e.LosesOnly) ∧ (i.run lostInSwitch).link.attached = true ∧
      (i.run lostInSwitch).host.Mirrors (i.run lostInSwitch).board.wires ∧
      (i.run lostInSwitch).host.Shows (i.run lostInSwitch).board.wires ∧
      (i.run lostInSwitch).board.wires Endpoint.countRate = 100 := by
  have hbus : (Bus.new .new).Losing := Bus.losing_of_fault_none rfl
  have hevents : ∀ e ∈ lostInSwitch, e.LosesOnly := by
    simp [lostInSwitch, Event.LosesOnly]
  obtain ⟨hmirrors, hshows, -, -⟩ :=
    mirrors_of_attached opened_lamp hbus hevents (by decide +kernel)
  exact ⟨_, opened_lamp, hbus, hevents, by decide +kernel, hmirrors, hshows, by decide +kernel⟩

end Instrument

end PulseSequencer

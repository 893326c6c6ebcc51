import PulseSequencer.Proofs.Instrument.Attachment
import PulseSequencer.Proofs.Instrument.Connecting
import PulseSequencer.Proofs.Instrument.Mirror
import PulseSequencer.Proofs.Instrument.Switch

/-!
# Switches that fail

A switch stages two bits and commits them as its last operation. If one of the operations fails, the
host keeps the line as it was, and so do the wires. But the bits that were staged before stay
staged, and whatever is committed next lets them take effect, although the switch was refused.

* `lineBits`, `Host.lineBits`: the bits of a line on the wires, and as the host keeps it.
* `Primitive.Spares`: operations that leave the bits of a line alone.
* `Instrument.LineKept`: the bits of a line are the same everywhere, which every event without
  faults keeps that is no switch of it.
* `Instrument.KeepsLine`: no run without faults and without a switch of the line changes its bits.
* `Instrument.failed_switch_keeps_line_iff`: the failed switches after which they may change;
  `Instrument.switch_after_failed_commit` is one of them.
-/

namespace PulseSequencer

/-- The bits of a line in the manual and in the level word. -/
def lineBits (wires : Address → Word) (index : UInt8) : Bool × Bool :=
  ((wires Endpoint.manual).getLsbD index.toNat, (wires Endpoint.level).getLsbD index.toNat)

/-- The bits of a line as the host keeps it; those of a line that is not configured are clear. -/
def Host.lineBits (h : Host) (index : UInt8) : Bool × Bool :=
  ((h.lines index).elim false LineState.manual, (h.lines index).elim false LineState.levelBit)

/-! ## Operations that leave a line alone -/

/-- The operation does not write to the bits of the line. -/
def Primitive.Spares (index : UInt8) (p : Primitive) : Prop :=
  ∀ wires, lineBits (p.write wires) index = lineBits wires index

namespace Primitive

variable {index : UInt8} {ps : List Primitive}

/-- Operations that do not write to the bits of a line leave them. -/
lemma lineBits_writeAll (hps : ∀ p ∈ ps, p.Spares index) (wires : Address → Word) :
    lineBits (writeAll wires ps) index = lineBits wires index := by
  induction ps generalizing wires with
  | nil => rfl
  | cons p ps ih =>
    exact (ih (fun q hq => hps q (List.mem_cons_of_mem p hq)) _).trans
      (hps p List.mem_cons_self wires)

/-- Operations that write to neither of the two words leave every line alone. -/
lemma WriteOnly.spares {fields : List (Address × Word)} (h : WriteOnly fields ps)
    (hapart : Apart fields [(Endpoint.manual, Word.all), (Endpoint.level, Word.all)])
    (index : UInt8) : ∀ p ∈ ps, p.Spares index := by
  intro p hp wires
  have hsingle : WriteOnly fields [p] := fun q hq => by
    rw [List.mem_singleton.mp hq]
    exact h p hp
  have hmanual : p.write wires Endpoint.manual = wires Endpoint.manual :=
    hsingle.word_eq hapart List.mem_cons_self wires
  have hlevel : p.write wires Endpoint.level = wires Endpoint.level :=
    hsingle.word_eq hapart (List.mem_cons_of_mem _ List.mem_cons_self) wires
  rw [lineBits, lineBits, hmanual, hlevel]

/-- A bit that is written is that of one line. -/
lemma spares_setWire {other : UInt8} (hindex : index.toNat < lineLimit) (hother : other ≠ index)
    (address : Address) (b : Bool) :
    Spares index (.setWire address (Host.bitIf other b) (BitVec.twoPow 32 other.toNat)) := by
  have hne : index.toNat ≠ other.toNat := fun h => hother (UInt8.toNat_inj.mp h).symm
  have hbit (wires : Address → Word) (wire : Address) :
      (write wires (.setWire address (Host.bitIf other b) (BitVec.twoPow 32 other.toNat))
        wire).getLsbD index.toNat = (wires wire).getLsbD index.toNat := by
    by_cases hwire : wire = address
    · subst hwire
      rw [write, setAt_same, Host.masked_bitIf, Word.getLsbD_assign _ _ _ hindex, if_neg hne]
    · rw [write, setAt_ne _ _ hwire]
  intro wires
  rw [lineBits, lineBits, hbit, hbit]

/-- The switch of another line does not write to the bits of a line. -/
lemma spares_switching {other : UInt8} (hindex : index.toNat < lineLimit) (hother : other ≠ index)
    (line : LineState) : ∀ p ∈ Host.switching other line, p.Spares index := by
  intro p hp
  rcases List.mem_cons.mp hp with rfl | hp
  · exact spares_setWire hindex hother _ _
  · rcases List.mem_cons.mp hp with rfl | hp
    · exact spares_setWire hindex hother _ _
    · rw [List.mem_singleton.mp hp]
      exact fun _ => rfl

end Primitive

namespace Board

/-- An operation leaves the wires or shows on them what was staged. -/
lemma wires_carry (b : Board) (p : Primitive) :
    (b.carry p).wires = b.wires ∨ (b.carry p).wires = b.pending := by
  cases p with
  | commit => exact .inr rfl
  | trigger address bit => exact .inl (wires_fire _ bit).1
  | _ => exact .inl rfl

/-- If the bits of a line are the same on the wires and after the next commit, operations that leave
the line alone keep them. -/
lemma lineBits_replay {index : UInt8} {bits : Bool × Bool} {b : Board} {ps : List Primitive}
    (hps : ∀ p ∈ ps, p.Spares index) (hpending : lineBits b.pending index = bits)
    (hwires : lineBits b.wires index = bits) :
    lineBits (b.replay ps).pending index = bits ∧ lineBits (b.replay ps).wires index = bits := by
  induction ps generalizing b with
  | nil => exact ⟨hpending, hwires⟩
  | cons p ps ih =>
    refine ih (fun q hq => hps q (List.mem_cons_of_mem p hq)) ?_ ?_
    · rw [pending_carry, hps p List.mem_cons_self]
      exact hpending
    · rcases b.wires_carry p with h | h
      · rw [h]
        exact hwires
      · rw [h]
        exact hpending

/-- The first two operations of a switch commit nothing. -/
lemma wires_of_cut_switching (b : Board) (index : UInt8) (line : LineState) {k : Nat} (hk : k < 3) :
    (b.replay ((Host.switching index line).take k)).wires = b.wires := by
  interval_cases k <;> rfl

end Board

namespace Host

variable {h h' : Host} {index : UInt8} {ps : List Primitive} {task : Task}

/-- The host's bits of a line depend on that line only. -/
lemma lineBits_congr (hlines : h'.lines index = h.lines index) :
    h'.lineBits index = h.lineBits index := by
  rw [lineBits, lineBits, hlines]

/-- A task that switches no line, or another one, leaves the line alone on the board and as the host
keeps it. -/
lemma Does.spares (hdoes : h.Does task ps h') (hindex : index.toNat < lineLimit)
    (hwithin : task.Within (· ≠ index)) :
    (∀ p ∈ ps, p.Spares index) ∧ h'.lineBits index = h.lineBits index := by
  refine ⟨?_, lineBits_congr (hdoes.lines_eq hwithin)⟩
  cases hdoes with
  | sequencer hdoes => exact hdoes.writeOnly.spares (by decide) index
  | counting hdoes => exact hdoes.writeOnly.spares (by decide) index
  | readout select => exact (Wire.writeOnly_asking select).spares (by decide) index
  | switchLine _ update => exact Primitive.spares_switching hindex hwithin _
  | @timetags ps hps =>
    have hasking : Primitive.WriteOnly [] [.latch, .readWire Endpoint.timetagTotal] := by
      simp [Primitive.WriteOnly]
    exact (hasking.append hps.writeOnly).spares (by decide) index
  | resetTimetags =>
    have hreset : Primitive.WriteOnly [] [.trigger Endpoint.trigger Pulse.resetTimetags] := by
      simp [Primitive.WriteOnly]
    exact hreset.spares (by decide) index

/-- The initialisation of a board writes the bits of a line as the host keeps it. -/
lemma lineBits_initialising {r : LineRegister} (hr : h.lines.register = .ok r)
    (hindex : index.toNat < lineLimit) (wires : Address → Word) :
    PulseSequencer.lineBits (Primitive.writeAll wires (h.initialising r)) index =
      h.lineBits index := by
  have hmirrors : Mirrors { h with controller := .idle }
      (Primitive.writeAll wires (h.initialising r)) := mirrors_initialising hr
  obtain ⟨hmanual, hlevel⟩ := LineTable.getLsbD_register hmirrors.lines hindex
  exact Prod.ext hmanual hlevel

end Host

namespace Instrument

/-! ## Events that do not switch the line -/

/-- The event switches the line, and succeeds. -/
def Switches (i : Instrument) (index : UInt8) (e : Event) : Prop :=
  ∃ c channel update i', e = .command c ∧ c.switch = some (channel, update) ∧
    i.registry.hardwareIndex channel = .ok index ∧ c.work i = .ok () i'

/-- No fault lies in wait, and the line has these bits as the host keeps it, on the wires and, if a
board is attached, after the next commit. -/
structure LineKept (index : UInt8) (bits : Bool × Bool) (l : Link Host) : Prop where
  fault : l.bus.fault = none
  host : l.state.lineBits index = bits
  wires : lineBits l.bus.board.wires index = bits
  pending : l.attached = true → lineBits l.bus.board.pending index = bits

variable {index : UInt8} {bits : Bool × Bool} {l l' : Link Host} {i i' : Instrument}

/-- If lines and bus are as they were, a line is kept as it was. -/
lemma LineKept.unchanged (hl : LineKept index bits l) (hlines : l'.state.lines = l.state.lines)
    (hbus : l'.bus = l.bus) (hattached : l'.attached = true → l.attached = true) :
    LineKept index bits l' := by
  refine ⟨hbus ▸ hl.fault, ?_, hbus ▸ hl.wires, fun h => ?_⟩
  · rw [Host.lineBits_congr (congrFun hlines index)]
    exact hl.host
  · rw [hbus]
    exact hl.pending (hattached h)

/-- Whatever happens to the link, except for a switch of the line, keeps its bits. -/
lemma LineKept.effect (hl : LineKept index bits l) (hindex : index.toNat < lineLimit)
    (h : Effect (· ≠ index) l l') : LineKept index bits l' := by
  cases h with
  | nothing hheld hattached =>
    exact hl.unchanged (congrArg (fun h => h.state.lines) hheld) (congrArg Held.bus hheld) hattached
  | stored _ hstate hbus hattached =>
    exact hl.unchanged (by rw [hstate]) hbus (hattached ▸ id)
  | @attached r _ _ hr hstate hcarries =>
    -- both words are written whole, as the host keeps the lines, and committed
    have hsettled : (l.bus.board.replay (l.state.initialising r)).Settled :=
      Board.settled_replay false nofun rfl
    have hbits : lineBits (l.bus.board.replay (l.state.initialising r)).pending index = bits := by
      rw [Board.pending_replay, Host.lineBits_initialising hr hindex]
      exact hl.host
    refine ⟨hcarries.fault_none hl.fault, hstate ▸ hl.host, ?_, fun _ => ?_⟩
    · rw [hcarries.board, ← hsettled.pending_eq]
      exact hbits
    · rw [hcarries.board]
      exact hbits
  | did hwithin hattached hdoes hcarries =>
    obtain ⟨hspares, hhost⟩ := hdoes.spares hindex hwithin
    obtain ⟨hpending, hwires⟩ :=
      Board.lineBits_replay hspares (hl.pending hattached) hl.wires
    refine ⟨hcarries.fault_none hl.fault, hhost.trans hl.host, ?_, fun _ => ?_⟩
    · rw [hcarries.board]
      exact hwires
    · rw [hcarries.board]
      exact hpending
  | failed hfails hleft hattached =>
    obtain ⟨-, -, hbus⟩ := hfails.absent hl.fault
    exact hl.unchanged hleft.lines hbus fun h => (hattached h).1

/-- Without a fault in wait a switch that fails does nothing. -/
lemma LineKept.switch_error (hl : LineKept index bits i.link) {c : Command} {channel : String}
    {update : LineState → LineState} (hc : c.switch = some (channel, update))
    (hchannel : i.registry.hardwareIndex channel = .ok index) {e : Error}
    (herror : c.work i = .error e i') : LineKept index bits i'.link := by
  have hswitch := switchLine_of_error hc herror
  rw [switchLine_eq hchannel] at hswitch
  by_cases hattached : i.link.attached = true
  · rcases transaction_cases_of_error hswitch with ⟨-, rfl⟩ | ⟨hwork, -⟩
    · exact hl
    · rcases (Host.follows_switchLine index update).of_error hwork with hheld | ⟨ps, hleft, hfails⟩
      · exact hl.unchanged (congrArg (fun h => h.state.lines) hheld) (congrArg Held.bus hheld)
          fun _ => hattached
      · exact hl.unchanged hleft.lines (hfails.absent hl.fault).2.2 fun _ => hattached
  · rw [transaction_of_detached _ hattached] at hswitch
    cases hswitch
    exact hl

/-- An event that lets no fault lie in wait and does not switch the line keeps its bits. -/
lemma LineKept.event (hl : LineKept index bits i.link) (hindex : index.toNat < lineLimit)
    {e : Event} (he : e.FaultFree) (hnot : ¬Switches i index e) :
    LineKept index bits (e.apply i).link := by
  cases e with
  | bus b =>
    cases b with
    | expect fault =>
      cases fault with
      | none => exact ⟨rfl, hl.host, hl.wires, hl.pending⟩
      | some f => cases he
    | _ => exact ⟨hl.fault, hl.host, hl.wires, hl.pending⟩
  | command c =>
    by_cases hsame : ∃ channel update, c.switch = some (channel, update) ∧
        i.registry.hardwareIndex channel = .ok index
    · obtain ⟨channel, update, hc, hchannel⟩ := hsame
      cases hr : c.work i with
      | ok u i' => exact absurd ⟨c, channel, update, i', rfl, hc, hchannel, hr⟩ hnot
      | error e i' =>
        show LineKept index bits (after c.work i).link
        rw [after_of_error hr]
        exact hl.switch_error hc hchannel hr
    · refine hl.effect hindex (c.affects_within i fun channel update other hc hchannel => ?_).link
      rintro rfl
      exact hsame ⟨channel, update, hc, hchannel⟩

/-- A run without faults and without a switch of a line keeps it. -/
lemma LineKept.run (hl : LineKept index bits i.link) (hindex : index.toNat < lineLimit)
    {events : List Event} (hevents : ∀ e ∈ events, e.FaultFree)
    (hnot : Along (fun i e => ¬Switches i index e) i events) :
    LineKept index bits (i.run events).link := by
  induction events generalizing i with
  | nil => exact hl
  | cons e events ih =>
    exact ih (hl.event hindex (hevents e List.mem_cons_self) hnot.1)
      (fun e' he' => hevents e' (List.mem_cons_of_mem e he')) hnot.2

/-! ## Runs in which the line is not switched -/

/-- Whatever happens without further faults and without a switch of the line, its bits on the wires
are these. -/
def KeepsLine (i : Instrument) (index : UInt8) (bits : Bool × Bool) : Prop :=
  ∀ events : List Event, (∀ e ∈ events, e.FaultFree) →
    Along (fun i e => ¬Switches i index e) (i.run [.bus (.expect none)]) events →
      lineBits (i.run (.bus (.expect none) :: events)).board.wires index = bits

/-- What waits on an attached board is committed by a change of the counting mode. -/
lemma wires_after_setMode (mode : CollectionMode) (hattached : i.link.attached = true)
    (hpresent : i.board.present = true) (hfault : i.link.bus.fault = none) (index : UInt8) :
    lineBits (Event.apply i (.command (.setMode mode))).board.wires index =
      lineBits i.board.pending index := by
  have hfollows := (Host.Task.counting (.setMode mode)).follows i.host
  obtain ⟨u, held, hwork⟩ :=
    (hfollows.ok_iff hfault hpresent).mpr ⟨_, _, .counting (.setMode mode)⟩
  obtain ⟨ps, hdoes, hcarries⟩ := hfollows.of_ok hwork
  have hboard : (Event.apply i (.command (.setMode mode))).board = i.board.replay ps := by
    have hheld := (after_transaction_of_attached (Host.Task.counting (.setMode mode)).work
      hattached).1.trans (after_of_ok hwork)
    exact (congrArg (fun h => h.bus.board) hheld).trans hcarries.board
  generalize held.state = host at hdoes
  cases hdoes with
  | counting hdoes =>
    have hspares := hdoes.writeOnly.spares (by decide) index
    cases hdoes
    rw [hboard, Board.wires_replay (Board.settled_replay false nofun rfl)]
    exact Primitive.lineBits_writeAll hspares _

/-- To connect writes the line as the host keeps it. -/
lemma wires_after_connect (hdetached : i.link.attached = false) (hpresent : i.board.present = true)
    (hfault : i.link.bus.fault = none) {r : LineRegister} (hr : i.host.lines.register = .ok r)
    (hindex : index.toNat < lineLimit) :
    lineBits (Event.apply i (.command .connect)).board.wires index = i.host.lineBits index := by
  cases i.attempt with
  | attached attached => cases hdetached.symm.trans attached
  | absent _ absent => cases hpresent.symm.trans absent
  | unfit _ _ unfit => cases hr.symm.trans unfit
  | failed _ _ _ fault => cases hfault.symm.trans fault
  | @done r' fault _ _ register _ ok =>
    have hboard : (Event.apply i (.command .connect)).board =
        i.board.replay (i.host.initialising r') := by
      show (after connect i).board = _
      rw [after_of_ok ok]
      rfl
    rw [hboard, Board.wires_replay (Board.settled_replay false nofun rfl)]
    exact Host.lineBits_initialising register hindex _

/-- Runs without a switch of a line keep its bits if what waits on an attached board would not
change them, and if they are as the host keeps them. -/
lemma keepsLine_iff (hsound : i.host.Sound fun _ => True) (hindex : index.toNat < lineLimit)
    (hwires : lineBits i.board.wires index = bits) :
    KeepsLine i index bits ↔
      (i.link.attached = true → lineBits i.board.pending index = bits) ∧
        i.host.lineBits index = bits := by
  constructor
  · intro hkeeps
    have hnever (c : Command) (hc : c.switch = none) (j : Instrument) :
        ¬Switches j index (.command c) := by
      rintro ⟨_, _, _, _, heq, hswitch, -⟩
      cases heq
      rw [hc] at hswitch
      cases hswitch
    have hplug (j : Instrument) : ¬Switches j index (.bus .plug) := by
      rintro ⟨_, _, _, _, heq, -⟩
      cases heq
    constructor
    · intro hattached
      -- any commit shows on the wires what waits
      have hbits := hkeeps [.bus .plug, .command (.setMode .normal)]
        (by simp [Event.FaultFree]) ⟨hplug _, hnever _ rfl _, trivial⟩
      rw [← hbits]
      exact (wires_after_setMode (i := i.run [.bus (.expect none), .bus .plug]) .normal hattached
        rfl rfl index).symm
    · -- a connect writes the bits as the host keeps them
      obtain ⟨r, hr⟩ := LineTable.exists_register hsound.lines
      have hbits := hkeeps [.bus .plug, .command .disconnect, .command .connect]
        (by simp [Event.FaultFree]) ⟨hplug _, hnever _ rfl _, hnever _ rfl _, trivial⟩
      rw [← hbits]
      exact (wires_after_connect
        (i := i.run [.bus (.expect none), .bus .plug, .command .disconnect]) rfl rfl rfl hr
        hindex).symm
  · rintro ⟨hpending, hhost⟩ events hevents hnot
    have hkept : LineKept index bits (i.run [.bus (.expect none)]).link :=
      ⟨rfl, hhost, hwires, hpending⟩
    exact (hkept.run hindex hevents hnot).wires

/-- What a switch leaves that fails on the way to the board: the host's state is as it was, and so
are the wires, and only a part of the operations has reached the board. -/
structure SwitchFailed (i i' : Instrument) (index : UInt8) (line : LineState)
    (f : TransportFailure) : Prop where
  host : i'.host = i.host
  registry : i'.registry = i.registry
  board : ∃ k < 3, i'.board = i.board.replay ((Host.switching index line).take k)
  attached : i'.link.attached = true ↔ f ≠ .disconnected

/-- A switch that fails on the way to the board leaves the host's state and the wires. -/
lemma switchFailed_of_error {c : Command} {channel : String} {update : LineState → LineState}
    {f : TransportFailure} (hindex : index.toNat < lineLimit)
    (hc : c.switch = some (channel, update))
    (hchannel : i.registry.hardwareIndex channel = .ok index)
    (herror : c.work i = .error (.transport f) i') :
    SwitchFailed i i' index (update ((i.host.lines index).getD default)) f := by
  have hswitch := switchLine_of_error hc herror
  rw [switchLine_eq hchannel] at hswitch
  obtain ⟨link, hlink, rfl⟩ := error_of_onLink hswitch
  rcases Link.transaction_cases_of_error hlink with ⟨-, he, -⟩ | ⟨held, hwork, rfl⟩
  · cases he
  · obtain ⟨hstate, hboard⟩ := Host.switchLine_of_error hindex hwork
    refine ⟨hstate, rfl, hboard, ?_⟩
    rw [Bool.not_eq_true', ← Bool.not_eq_true, Error.isDisconnection_iff]
    simp

/-- A switch that fails on the way to the board leaves the state of every channel as it was, and
brings only a part of its operations to the board. Later events without faults and without a switch
of the line keep its bits exactly if the failure detached the board or the bits that wait on it are
those on the wires, and if the wires showed the line as the host keeps it. -/
theorem failed_switch_keeps_line_iff {c : Command} {channel : String}
    {update : LineState → LineState} {f : TransportFailure} (hi : Reachable i)
    (hc : c.switch = some (channel, update))
    (hchannel : i.registry.hardwareIndex channel = .ok index)
    (herror : c.work i = .error (.transport f) i') :
    (∀ name, i'.lineState name = i.lineState name) ∧
      (∃ k < 3, i'.board = i.board.replay
        ((Host.switching index (update ((i.host.lines index).getD default))).take k)) ∧
      (KeepsLine i' index (lineBits i.board.wires index) ↔
        (f = .disconnected ∨
          lineBits i'.board.pending index = lineBits i.board.wires index) ∧
          i.host.lineBits index = lineBits i.board.wires index) := by
  have hsound := hi.sound
  have hindex := hsound.index_lt channel index hchannel
  have hfailed := switchFailed_of_error hindex hc hchannel herror
  refine ⟨fun name => ?_, hfailed.board, ?_⟩
  · exact lineState_congr hfailed.registry (congrArg Host.lines hfailed.host) name
  · obtain ⟨k, hk, hboard⟩ := hfailed.board
    have hwires : lineBits i'.board.wires index = lineBits i.board.wires index := by
      rw [hboard, Board.wires_of_cut_switching _ _ _ hk]
    have hsound' : i'.host.Sound fun _ => True := hfailed.host ▸ hsound.host
    rw [keepsLine_iff hsound' hindex hwires, hfailed.attached, hfailed.host, ← or_iff_not_imp_left]

/-! ## Two switches that fail -/

/-- The instrument of a lamp, and a fault that lets `passed` operations pass. -/
def lampWith (passed : Nat) : Instrument :=
  (after connect (unopened lampConfiguration ⟨[.auto "lamp" 3], []⟩ "board" (.new .new))).run
    [.bus (.expect (some ⟨passed, .reported (.failed "primitive" "link")⟩))]

/-- The lamp is switched on. -/
def lampOn : Command := .switchManual none "lamp" (some true)

/-- The instrument of a lamp with a fault in wait can be reached. -/
lemma reachable_lampWith (passed : Nat) : Reachable (lampWith passed) :=
  Reachable.run (.opened opened_lamp) _

set_option maxRecDepth 20000 in
/-- A switch that could not stage a bit is over. -/
theorem unstaged_switch_keeps_line :
    Reachable (lampWith 0) ∧ lampOn.switch = some ("lamp", heldAt (some true)) ∧
      (lampWith 0).registry.hardwareIndex "lamp" = .ok 3 ∧
      lampOn.work (lampWith 0) = .error (.transport (.failed "primitive" "link"))
        (after lampOn.work (lampWith 0)) ∧
      KeepsLine (after lampOn.work (lampWith 0)) 3 (lineBits (lampWith 0).board.wires 3) := by
  have hchannel : (lampWith 0).registry.hardwareIndex "lamp" = .ok 3 := rfl
  have herror : lampOn.work (lampWith 0) = .error (.transport (.failed "primitive" "link"))
      (after lampOn.work (lampWith 0)) := rfl
  refine ⟨reachable_lampWith 0, rfl, hchannel, herror, ?_⟩
  refine (failed_switch_keeps_line_iff (reachable_lampWith 0) rfl hchannel herror).2.2.mpr ?_
  exact ⟨.inr (by decide +kernel), by decide +kernel⟩

set_option maxRecDepth 20000 in
/-- A switch whose commit failed takes effect with the next commit of another operation. -/
theorem switch_after_failed_commit :
    ∃ (i i' : Instrument) (c : Command) (channel : String) (update : LineState → LineState)
      (index : UInt8) (f : TransportFailure), Reachable i ∧ i.link.attached = true ∧
      c.switch = some (channel, update) ∧ i.registry.hardwareIndex channel = .ok index ∧
      c.work i = .error (.transport f) i' ∧
      ¬KeepsLine i' index (lineBits i.board.wires index) := by
  have hreachable := reachable_lampWith 2
  have hchannel : (lampWith 2).registry.hardwareIndex "lamp" = .ok 3 := rfl
  have herror : lampOn.work (lampWith 2) = .error (.transport (.failed "primitive" "link"))
      (after lampOn.work (lampWith 2)) := rfl
  refine ⟨_, _, _, _, _, _, _, hreachable, by decide +kernel, rfl, hchannel, herror, ?_⟩
  have hsound : Obeys (Host.Sound fun _ => True) (after lampOn.work (lampWith 2)) :=
    (lampOn.keeps _ hreachable.sound).1
  intro hkeeps
  have hpending := ((keepsLine_iff hsound.host (by decide) (by decide +kernel)).mp hkeeps).1
    (by decide +kernel)
  exact absurd hpending (by decide +kernel)

end Instrument

end PulseSequencer

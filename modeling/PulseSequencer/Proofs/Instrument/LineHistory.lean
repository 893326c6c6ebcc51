import PulseSequencer.Proofs.Instrument.Safety
import PulseSequencer.Proofs.Instrument.Switch
import PulseSequencer.Proofs.Registry

/-!
# The history of a line

What is reported of a channel's line is a record of the switches of this channel that succeeded, in
order, and of nothing else. A switch that failed leaves no trace in it, and neither do switches of
other channels, faults, and boards that come and go.

* `LineSwitch`: the switches of a line as data.
* `Instrument.lines_of_switch`, `Instrument.lines_of_failed_switch`: what becomes of a line.
* `Instrument.switched`, `Instrument.history`: the switches of a channel that succeed.
* `Instrument.Recorded`: a line that shows its history, and `Instrument.lineState_recorded`, that
  every line does; `Instrument.lamp_recorded` is a case of it.
-/

namespace PulseSequencer

/-! ## Switches of a line -/

/-- A switch of a line, with the level or the inversion that it was given, if any. -/
inductive LineSwitch where
  | held (level : Option Bool)
  | driven (inverted : Option Bool)
  deriving DecidableEq, Repr

namespace LineSwitch

/-- What a switch makes of a line. -/
def update : LineSwitch → LineState → LineState
  | held level => Instrument.heldAt level
  | driven inverted => Instrument.drivenWith inverted

/-- Whether a switch holds the line at a level. -/
def holds : LineSwitch → Bool
  | held _ => true
  | driven _ => false

/-- The level that a switch was given. -/
def level? : LineSwitch → Option Bool
  | held level => level
  | driven _ => none

/-- The inversion that a switch was given. -/
def inverted? : LineSwitch → Option Bool
  | held _ => none
  | driven inverted => inverted

end LineSwitch

/-! ## What becomes of a line -/

namespace Host

/-- A switch that succeeds updates the line as the host keeps it. -/
lemma lines_of_switchLine {held held' : Held Host} {index : UInt8} {update : LineState → LineState}
    {line : LineState} (hok : switchLine index update held = .ok line held') :
    held'.state.lines index = some (update ((held.state.lines index).getD default)) := by
  obtain ⟨ps, hdoes, -⟩ := (follows_switchLine index update).of_ok hok
  generalize held'.state = h' at hdoes
  cases hdoes
  exact if_pos rfl

end Host

namespace Instrument

variable {i i' : Instrument} {index : UInt8} {command : Command} {channel : String}
  {update : LineState → LineState}

/-- A command that switches a channel and succeeds updates its line. -/
lemma lines_of_switch (hswitch : command.switch = some (channel, update))
    (hchannel : i.registry.hardwareIndex channel = .ok index) (hok : command.work i = .ok () i') :
    i'.host.lines index = some (update ((i.host.lines index).getD default)) := by
  obtain ⟨origin, event, hwork⟩ := Command.work_of_switch hswitch
  rw [hwork] at hok
  obtain ⟨line, i₁, hfirst, hnotify⟩ := ok_of_bind hok
  cases hnotify
  rw [switchLine_eq hchannel] at hfirst
  exact Host.lines_of_switchLine (transaction_of_ok hfirst).2

/-- A command that switches a channel and fails leaves all lines. -/
lemma lines_of_failed_switch (hswitch : command.switch = some (channel, update))
    (hchannel : i.registry.hardwareIndex channel = .ok index) {e : Error}
    (herror : command.work i = .error e i') : i'.host.lines = i.host.lines := by
  have hfailed := switchLine_of_error hswitch herror
  rw [switchLine_eq hchannel] at hfailed
  rcases transaction_cases_of_error hfailed with ⟨-, rfl⟩ | ⟨hwork, -⟩
  · rfl
  · rcases (Host.follows_switchLine index update).of_error hwork with hheld | ⟨ps, hleft, -⟩
    · exact congrArg (fun held => held.state.lines) hheld
    · exact hleft.lines

/-! ## Histories -/

/-- The switch that a command asks for, with its channel, if it asks for one. -/
def Command.lineSwitch : Command → Option (String × LineSwitch)
  | switchManual _ channel level => some (channel, .held level)
  | switchAuto _ channel inverted => some (channel, .driven inverted)
  | _ => none

/-- What a command does to a line is the update of the switch that it asks for. -/
lemma Command.switch_eq (command : Command) :
    command.switch = command.lineSwitch.map fun asked => (asked.1, asked.2.update) := by
  cases command <;> rfl

/-- The switch of a channel that an event is, if it is one and succeeds. -/
def switched (i : Instrument) (name : String) : Event → Option LineSwitch
  | .command command =>
    match command.lineSwitch, command.work i with
    | some (channel, s), .ok _ _ => if channel = name then some s else none
    | _, _ => none
  | .bus _ => none

/-- The switches of a channel that succeed in a run, in order. -/
def history (name : String) : Instrument → List Event → List LineSwitch
  | _, [] => []
  | i, e :: events => (i.switched name e).toList ++ history name (e.apply i) events

/-- A switch that succeeds is one. -/
lemma switched_of_ok {s : LineSwitch} (hasked : command.lineSwitch = some (channel, s))
    (hok : command.work i = .ok () i') : i.switched channel (.command command) = some s := by
  simp only [switched, hasked, hok, if_true]

/-- A command that fails switches nothing. -/
lemma switched_of_error {e : Error} (herror : command.work i = .error e i') (name : String) :
    i.switched name (.command command) = none := by
  rw [switched, herror]
  cases command.lineSwitch <;> rfl

/-- A command that asks for no switch of a channel switches it in no case. -/
lemma switched_of_other (hother : ∀ s, command.lineSwitch ≠ some (channel, s)) :
    i.switched channel (.command command) = none := by
  cases hasked : command.lineSwitch with
  | none => simp only [switched, hasked]
  | some asked =>
    have hne : asked.1 ≠ channel := fun hname => hother asked.2 (hname ▸ hasked)
    cases hwork : command.work i with
    | ok u i' => simp only [switched, hasked, hwork, if_neg hne]
    | error e i' => exact switched_of_error hwork channel

section
variable {config : Configuration} {c : Channel} {line : LineState}
  (hregistry : Registry.ofConfiguration config = .ok i.registry) (hc : c ∈ config.channels)
include hregistry hc

/-- A command that does not ask for a switch of the channel leaves its line as it is. -/
lemma lines_of_other (hother : ∀ s, command.lineSwitch ≠ some (c.name, s)) :
    (after command.work i).host.lines c.index = i.host.lines c.index := by
  refine (command.affects_within i fun channel update index hswitch hchannel => ?_).link.lines_eq
  rintro rfl
  -- no other channel is on this line
  obtain ⟨c', hc', rfl, hindex⟩ := (Registry.hardwareIndex_eq_ok hregistry).mp hchannel
  have indices := (unique_of_ofConfiguration hregistry).channelIndices
  cases List.inj_on_of_nodup_map indices hc' hc hindex
  rw [command.switch_eq] at hswitch
  obtain ⟨⟨_, s⟩, hasked, heq⟩ := Option.map_eq_some_iff.mp hswitch
  cases heq
  exact hother s hasked

/-- An event changes the line of a channel as the switch that it is does, and leaves it alone if it
is none. -/
lemma lines_apply (hline : i.host.lines c.index = some line) (e : Event) :
    (e.apply i).host.lines c.index =
      some ((i.switched c.name e).elim line fun s => s.update line) := by
  cases e with
  | bus b => exact hline
  | command command =>
    show (after command.work i).host.lines c.index = _
    by_cases hother : ∀ s, command.lineSwitch ≠ some (c.name, s)
    · rw [lines_of_other hregistry hc hother, switched_of_other hother]
      exact hline
    · obtain ⟨s, hasked⟩ := not_forall_not.mp hother
      have hswitch : command.switch = some (c.name, s.update) := by
        rw [command.switch_eq, hasked]
        rfl
      have hchannel : i.registry.hardwareIndex c.name = .ok c.index :=
        (Registry.hardwareIndex_eq_ok hregistry).mpr ⟨c, hc, rfl, rfl⟩
      cases hwork : command.work i with
      | ok u i' =>
        rw [after_of_ok hwork, lines_of_switch hswitch hchannel hwork, switched_of_ok hasked hwork,
          hline]
        rfl
      | error e i' =>
        rw [after_of_error hwork, lines_of_failed_switch hswitch hchannel hwork,
          switched_of_error hwork]
        exact hline

/-- After a run a line is what the successful switches of its channel have made of it. -/
lemma lines_run (hline : i.host.lines c.index = some line) (events : List Event) :
    (i.run events).host.lines c.index =
      some ((i.history c.name events).foldl (fun line s => s.update line) line) := by
  induction events generalizing i line with
  | nil => exact hline
  | cons e events ih =>
    have hregistry' : Registry.ofConfiguration config = .ok (e.apply i).registry := by
      rw [(setup_apply e i).1, hregistry]
    refine (ih hregistry' (lines_apply hregistry hc hline e)).trans ?_
    rw [history, List.foldl_append]
    cases i.switched c.name e <;> rfl

end

/-- Before anything happens the line of a channel is as the channel is configured. -/
lemma initialLines_eq {registry : Registry} {c : Channel} (hc : c ∈ registry.channels)
    (indices : (registry.channels.map Channel.index).Nodup) :
    initialLines registry c.index = some c.initial := by
  rw [initialLines]
  generalize registry.channels = channels at hc indices
  induction channels using List.reverseRecOn with
  | nil => cases hc
  | append_singleton rest d ih =>
    rw [List.map_append, List.nodup_append] at indices
    obtain ⟨hrest, -, hapart⟩ := indices
    rw [List.foldl_append]
    rcases List.mem_append.mp hc with hc | hc
    · have hne : c.index ≠ d.index :=
        hapart _ (List.mem_map_of_mem hc) _ (List.mem_map_of_mem List.mem_cons_self)
      exact (if_neg hne).trans (ih hc hrest)
    · cases List.mem_singleton.mp hc
      exact if_pos rfl

/-! ## What is reported of a line -/

/-- A line that was `initial` before the switches and is what they leave: its kind is that of the
last one, its level and its inversion are those that were given last, and the inversion of the level
is as before. -/
structure Recorded (initial : LineState) (switches : List LineSwitch) (line : LineState) :
    Prop where
  eq_foldl : line = switches.foldl (fun line s => s.update line) initial
  manual : line.manual = (switches.map LineSwitch.holds).getLast?.getD initial.manual
  level : line.level = (switches.filterMap LineSwitch.level?).getLast?.getD initial.level
  autoInverted :
    line.autoInverted = (switches.filterMap LineSwitch.inverted?).getLast?.getD initial.autoInverted
  manualInverted : line.manualInverted = initial.manualInverted

/-- Switches in order leave what each kind of them gave last. -/
lemma recorded_foldl (initial : LineState) (switches : List LineSwitch) :
    Recorded initial switches (switches.foldl (fun line s => s.update line) initial) := by
  constructor
  case eq_foldl => rfl
  case manual =>
    rw [← List.filterMap_eq_map]
    exact foldl_last_given LineState.manual (fun _ s => by cases s <;> rfl) switches initial
  case level =>
    exact foldl_last_given LineState.level (fun _ s => by cases s <;> rfl) switches initial
  case autoInverted =>
    exact foldl_last_given LineState.autoInverted (fun _ s => by cases s <;> rfl) switches initial
  case manualInverted =>
    have kept (s : LineSwitch) (line : LineState) :
        (s.update line).manualInverted = line.manualInverted := by cases s <;> rfl
    induction switches generalizing initial with
    | nil => rfl
    | cons s rest ih => exact (ih _).trans (kept s initial)

/-- Whatever happens to an instrument that was opened, the line that is reported for a channel is a
record of the switches of this channel that have succeeded. -/
theorem lineState_recorded {config : Configuration} {id : String} {bus : Bus}
    (hopened : opened config id bus = .ok i) {c : Channel} (hc : c ∈ config.channels)
    (events : List Event) :
    ∃ line, (i.run events).lineState c.name = .ok line ∧
      Recorded c.initial (i.history c.name events) line := by
  have hregistry := (setup_of_opened hopened).1
  obtain ⟨registry, hunopened, rfl⟩ := eq_connect_of_opened hopened
  have initially : (after connect (unopened config registry id bus)).host.lines c.index =
      some c.initial := by
    have perm := (tables_of_ofConfiguration hunopened).1
    have indices := (unique_of_ofConfiguration hunopened).channelIndices
    have connects : Affects (· ≠ c.index) connect (unopened config registry id bus) :=
      .onLink (Link.effect_connect _ _)
    rw [← (perm.map _).nodup_iff] at indices
    exact connects.link.lines_eq.trans (initialLines_eq (perm.mem_iff.mpr hc) indices)
  have hchannel := (Registry.hardwareIndex_eq_ok
    ((congrArg Except.ok (setup_run events _).1).symm ▸ hregistry)).mpr ⟨c, hc, rfl, rfl⟩
  exact ⟨_, lineState_of_lines hchannel (lines_run hregistry hc initially events),
    recorded_foldl _ _⟩

/-- The lamp is switched on, and the board is lost while the lamp is handed to the sequencer,
inverted. Attached again, it is handed over as it was, and then held once more. -/
def lampSwitches : List Event :=
  [.command (.switchManual none "lamp" (some true)),
    .bus (.expect (some ⟨1, .reported .disconnected⟩)),
    .command (.switchAuto none "lamp" (some true)), .command .connect,
    .command (.switchAuto none "lamp" none), .command (.switchManual none "lamp" none)]

set_option maxRecDepth 20000 in
/-- The lamp is on again. The switch that failed has left no inversion. -/
theorem lamp_recorded :
    ∃ i, opened lampConfiguration "board" (.new .new) = .ok i ∧
      .auto "lamp" 3 ∈ lampConfiguration.channels ∧
      i.history "lamp" lampSwitches = [.held (some true), .driven none, .held none] ∧
      (i.run lampSwitches).lineState "lamp" = .ok ⟨true, true, false, false⟩ := by
  have hhistory : history "lamp" (after connect
      (unopened lampConfiguration ⟨[.auto "lamp" 3], []⟩ "board" (.new .new))) lampSwitches =
      [.held (some true), .driven none, .held none] := by decide +kernel
  have hc : .auto "lamp" 3 ∈ lampConfiguration.channels := List.mem_cons_self
  obtain ⟨line, hline, recorded⟩ := lineState_recorded opened_lamp hc lampSwitches
  refine ⟨_, opened_lamp, hc, hhistory, hline.trans (congrArg Except.ok ?_)⟩
  have hfoldl := recorded.eq_foldl
  rw [show (Channel.auto "lamp" 3).name = "lamp" from rfl, hhistory] at hfoldl
  exact hfoldl

end Instrument

end PulseSequencer

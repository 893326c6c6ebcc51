import PulseSequencer.Instrument
import PulseSequencer.Proofs.Action
import PulseSequencer.Proofs.Bus

/-!
# Runs of an instrument

What callers ask of an instrument and what happens to its board meanwhile, as data. The states of an
instrument are those that such events lead to from the moment at which it was opened.

* `foldl_last_given`: what is left of a field that steps give values.
* `Instrument.Command`, `Instrument.Event`: what callers ask for, and what can happen at all.
* `Instrument.run`, `Instrument.Reachable`: runs, and the states that they lead to.
* `Instrument.after_waitDone`: waiting for the end of a run is a run of questions.
* `Instrument.issued`: the operations that an event brings to the board.
-/

namespace PulseSequencer

/-- If each of a list of steps gives a field a value or leaves it as it is, the value that was given
last stays. -/
lemma foldl_last_given {σ ε α : Type} {step : σ → ε → σ} (field : σ → α) {given : ε → Option α}
    (law : ∀ s e, field (step s e) = (given e).getD (field s)) (es : List ε) (s : σ) :
    field (es.foldl step s) = (es.filterMap given).getLast?.getD (field s) := by
  induction es generalizing s with
  | nil => rfl
  | cons e rest ih =>
    rw [List.foldl_cons, ih, law]
    cases he : given e with
    | none => rw [List.filterMap_cons_none he, Option.getD_none]
    | some a =>
      rw [List.filterMap_cons_some he, List.getLast?_cons]
      rfl

namespace Instrument

instance : HasBoard Instrument := ⟨fun i => i.link.held.bus.board⟩

/-- The board of an instrument, attached or not. -/
def board (i : Instrument) : Board := i.link.held.bus.board

/-- What callers ask of an instrument. To wait for the end of a run is to ask for it repeatedly. -/
inductive Command where
  | connect
  | disconnect
  | program (p : Program)
  | programSequence (s : Session)
  | startSingle
  | startInfinite
  | startCounted (count : Nat)
  | complete
  | stop
  | repetitions
  | pollDone
  | counts (readTime : Float)
  | resetCounts
  | setMode (mode : CollectionMode)
  | setCollectionTime (seconds : Float) (mode : CollectionMode)
  | timetags
  | resetTimetags
  | switchManual (origin : Option SessionId) (channel : String) (level : Option Bool)
  | switchAuto (origin : Option SessionId) (channel : String) (inverted : Option Bool)
  | openSession
  | closeSession (id : SessionId)
  | takeNotice (id : SessionId)
  | takeNotices (id : SessionId)

namespace Command

/-- The work of a command; what it answers is left out. -/
def work : Command → Operation Unit
  | connect => Instrument.connect
  | disconnect => modify Instrument.disconnect
  | program p => Instrument.program p
  | programSequence s => Instrument.programSequence s
  | startSingle => Instrument.startSingle
  | startInfinite => Instrument.startInfinite
  | startCounted count => Instrument.startCounted count
  | complete => Instrument.complete
  | stop => Instrument.stop
  | repetitions => do let _ ← Instrument.repetitions
  | pollDone => do let _ ← Instrument.pollDone
  | counts readTime => do let _ ← Instrument.counts readTime
  | resetCounts => Instrument.resetCounts
  | setMode mode => Instrument.setMode mode
  | setCollectionTime seconds mode => Instrument.setCollectionTime seconds mode
  | timetags => do let _ ← Instrument.timetags
  | resetTimetags => Instrument.resetTimetags
  | switchManual origin channel level => Instrument.switchManual origin channel level
  | switchAuto origin channel inverted => Instrument.switchAuto origin channel inverted
  | openSession => do let _ ← Instrument.openSession
  | closeSession id => modify (Instrument.closeSession id)
  | takeNotice id => do let _ ← Instrument.takeNotice id
  | takeNotices id => do let _ ← Instrument.takeNotices id

/-- Whether a command starts the sequencer. -/
def starts : Command → Bool
  | startSingle | startInfinite | startCounted _ => true
  | _ => false

/-- Whether a command uploads a program. -/
def uploads : Command → Bool
  | program _ | programSequence _ => true
  | _ => false

end Command

/-- What can happen to an instrument. -/
inductive Event where
  | command (c : Command)
  | bus (e : BusEvent)

namespace Event

/-- The instrument after an event; what a command that failed did until then stays. -/
def apply (i : Instrument) : Event → Instrument
  | command c => after c.work i
  | bus e => { i with link := i.link.onBus e.apply }

/-- Whether an event is a command that starts the sequencer. -/
def starts : Event → Bool
  | command c => c.starts
  | bus _ => false

end Event

/-- The instrument after events in order. -/
def run (i : Instrument) (events : List Event) : Instrument := events.foldl Event.apply i

/-- The states of instruments: they were opened, and events happened to them. -/
inductive Reachable : Instrument → Prop where
  | opened {config : Configuration} {id : String} {bus : Bus} {i : Instrument}
      (h : Instrument.opened config id bus = .ok i) : Reachable i
  | step {i : Instrument} (e : Event) (h : Reachable i) : Reachable (e.apply i)

/-- The operations that an event brings to the board. -/
def issued (i : Instrument) (e : Event) : List Primitive :=
  (e.apply i).board.log.drop i.board.log.length

/-- A run in two parts is one part after the other. -/
lemma run_append (i : Instrument) (events more : List Event) :
    i.run (events ++ more) = (i.run events).run more := List.foldl_append

/-- A run of an instrument that can be reached leads to another one. -/
lemma Reachable.run {i : Instrument} (h : Reachable i) (events : List Event) :
    Reachable (i.run events) := by
  induction events using List.reverseRecOn with
  | nil => exact h
  | append_singleton events e ih =>
    rw [run_append]
    exact .step e ih

/-- Operations that lead from one board to the next are those that an event brings to it. -/
lemma issued_of_replay {i : Instrument} {e : Event} {ps : List Primitive}
    (h : (e.apply i).board = i.board.replay ps) : i.issued e = ps := by
  rw [issued, h, Board.log_replay, List.drop_left]

section
variable {γ α β : Type} {f : Instrument → γ}

/-- A refusal leaves everything alone. -/
lemma leaves_ofExcept_bind {r : Except Error α} {g : α → Operation β} (hg : ∀ a, Leaves f (g a)) :
    Leaves f (ofExcept r >>= g) := by
  cases r with
  | error e => exact fun _ => rfl
  | ok a => exact hg a

/-- A switch leaves alone what its transactions do. -/
lemma leaves_switchLine_of_transaction {channel : String} {update : LineState → LineState}
    (hwork : ∀ index, Leaves f (transaction (Host.switchLine index update))) :
    Leaves f (switchLine channel update) :=
  .get_bind fun _ => leaves_ofExcept_bind hwork

end

/-- A run of events on the bus changes nothing but the bus. -/
lemma run_bus (i : Instrument) (events : List BusEvent) :
    i.run (events.map .bus) =
      { i with link := i.link.onBus fun b => events.foldl (fun b e => e.apply b) b } := by
  induction events generalizing i with
  | nil => rfl
  | cons e events ih => exact ih _

/-- To wait for the end of a run is to ask for it again and again, with whatever happens to the bus
in between. -/
theorem after_waitDone (meanwhile : Nat → List BusEvent) (pauses : Nat) (i : Instrument) :
    ∃ events : List Event,
      (∀ e ∈ events, e = .command .pollDone ∨ ∃ k, ∃ b ∈ meanwhile k, e = .bus b) ∧
      after (waitDone (fun k b => (meanwhile k).foldl (fun b e => e.apply b) b) pauses) i =
        i.run events := by
  have asked (i : Instrument) : i.run [.command .pollDone] = after pollDone i :=
    after_discard pollDone i
  induction pauses generalizing i with
  | zero => exact ⟨[.command .pollDone], by simp, (asked i).symm⟩
  | succ k ih =>
    cases hpoll : pollDone i with
    | error e i' =>
      refine ⟨[.command .pollDone], by simp, ?_⟩
      rw [asked, after_of_error hpoll, waitDone, after_bind_of_error hpoll]
    | ok done i' =>
      cases done with
      | true =>
        refine ⟨[.command .pollDone], by simp, ?_⟩
        rw [asked, after_of_ok hpoll, waitDone, after_bind_of_ok hpoll]
        rfl
      | false =>
        -- the wait goes on from what has happened to the bus meanwhile
        obtain ⟨events, hevents, hrun⟩ := ih (i'.run ((meanwhile k).map .bus))
        refine ⟨.command .pollDone :: ((meanwhile k).map .bus ++ events), ?_, ?_⟩
        · intro e he
          rcases List.mem_cons.mp he with rfl | he
          · exact .inl rfl
          · rcases List.mem_append.mp he with he | he
            · obtain ⟨b, hb, rfl⟩ := List.mem_map.mp he
              exact .inr ⟨k, b, hb, rfl⟩
            · exact hevents e he
        · have hfirst : i.run (.command .pollDone :: ((meanwhile k).map .bus ++ events)) =
              (i'.run ((meanwhile k).map .bus)).run events := by
            rw [← run_append, ← after_of_ok hpoll, ← asked]
            rfl
          rw [hfirst, ← hrun, run_bus, waitDone, after_bind_of_ok hpoll]
          rfl

end Instrument

end PulseSequencer

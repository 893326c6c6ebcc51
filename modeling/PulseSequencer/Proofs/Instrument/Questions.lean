import PulseSequencer.Proofs.Instrument.Intake

/-!
# Questions to the board

Callers ask for the done flag, for the repetitions completed and for the records that wait, in any
order and between any other commands, and all three are read over the same wire. Each is answered
with its own quantity: the first two are what was last seen on the board from outside, whatever the
host wrote to it meanwhile.

* `Board.counters_replay`: no operation changes what is told of the run of the sequencer.
* `Instrument.counters_run`: what a run of events leaves of it.
* `Controller.pollDone_of_ok`, `Controller.repetitions_of_ok`, `Counting.drainRecords_of_ok`: what
  the questions answer, and what they do to the board.
* `Instrument.Answered`, `Instrument.questions_answered`: the questions after any events.
-/

namespace PulseSequencer

/-! ## What the board tells of a run -/

namespace Board

/-- No operation changes the done flag or the number of repetitions. -/
lemma counters_carry (b : Board) (p : Primitive) :
    (b.carry p).done = b.done ∧ (b.carry p).repetitions = b.repetitions := by
  cases p with
  | trigger address bit =>
    obtain ⟨clear, hfire⟩ := exists_fire bit
    rw [carry, perform, hfire]
    exact ⟨rfl, rfl⟩
  | _ => exact ⟨rfl, rfl⟩

/-- No operation changes the done flag or the number of repetitions. -/
lemma counters_replay (b : Board) (ps : List Primitive) :
    (b.replay ps).done = b.done ∧ (b.replay ps).repetitions = b.repetitions := by
  induction ps generalizing b with
  | nil => exact ⟨rfl, rfl⟩
  | cons p ps ih =>
    obtain ⟨hdone, hrepetitions⟩ := b.counters_carry p
    exact ⟨(ih _).1.trans hdone, (ih _).2.trans hrepetitions⟩

end Board

namespace Instrument

/-- Whatever a command does to the link, on the board operations have been carried out. -/
lemma Effect.board {A : UInt8 → Prop} {l l' : Link Host} (h : Effect A l l') :
    ∃ ps, l'.bus.board = l.bus.board.replay ps := by
  cases h with
  | nothing hheld _ => exact ⟨[], congrArg (fun held => held.bus.board) hheld⟩
  | stored _ _ hbus _ => exact ⟨[], congrArg Bus.board hbus⟩
  | attached _ _ _ _ hcarries => exact ⟨_, hcarries.board⟩
  | did _ _ _ hcarries => exact ⟨_, hcarries.board⟩
  | failed hfails _ _ =>
    obtain ⟨bus, p, hcarries, hp⟩ := hfails
    exact ⟨_, (Bus.issue_of_error hp).1.trans hcarries.board⟩

namespace Event

/-- The done flag that an event puts on the board from outside, if it does. -/
def setsDone : Event → Option Bool
  | bus (.setDone done) => some done
  | _ => none

/-- The number of repetitions that an event puts on the board from outside, if it does. -/
def setsRepetitions : Event → Option Word
  | bus (.setRepetitions repetitions) => some repetitions
  | _ => none

/-- Only an event that puts them there changes the done flag or the number of repetitions. -/
lemma counters_apply (i : Instrument) (e : Event) :
    (e.apply i).board.done = e.setsDone.getD i.board.done ∧
      (e.apply i).board.repetitions = e.setsRepetitions.getD i.board.repetitions := by
  cases e with
  | command c =>
    obtain ⟨ps, hps⟩ := (c.affects i).link.board
    have hboard : (Event.apply i (.command c)).board = i.board.replay ps := hps
    rw [hboard]
    exact i.board.counters_replay ps
  | bus e => cases e <;> exact ⟨rfl, rfl⟩

end Event

/-- After events the board has the done flag and the number of repetitions that it was last given
from outside. -/
lemma counters_run (i : Instrument) (events : List Event) :
    (i.run events).board.done = (events.filterMap Event.setsDone).getLast?.getD i.board.done ∧
      (i.run events).board.repetitions =
        (events.filterMap Event.setsRepetitions).getLast?.getD i.board.repetitions :=
  ⟨foldl_last_given (·.board.done) (fun i e => (e.counters_apply i).1) events i,
    foldl_last_given (·.board.repetitions) (fun i e => (e.counters_apply i).2) events i⟩

end Instrument

/-! ## Answers -/

namespace Controller

variable {h h' : Held Controller}

/-- A poll that succeeds tells the done flag of the board. -/
lemma pollDone_of_ok {done : Bool} (hok : pollDone h = .ok done h') :
    done = h.bus.board.done ∧ h.bus.board.ReadOut .done h'.bus.board := by
  obtain ⟨word, h₁, hread, hrest⟩ := ok_of_bind hok
  have hword := (Wire.readout_of_ok hread).2.1
  have hleft := Wire.board_of_readout hread
  -- the flag is shown as 0 or 1
  cases hdone : h.bus.board.done with
  | false =>
    have hzero : word = 0 := by rw [hword, Board.quantityWord, hdone]; rfl
    rw [if_neg (not_not_intro hzero)] at hrest
    cases hrest
    exact ⟨decide_eq_false (not_not_intro hzero), hleft⟩
  | true =>
    have hone : word ≠ 0 := by rw [hword, Board.quantityWord, hdone]; decide
    rw [if_pos hone] at hrest
    cases hrest
    exact ⟨decide_eq_true hone, hleft⟩

/-- A question for the repetitions that succeeds tells those of the board. -/
lemma repetitions_of_ok {word : Word} (hok : repetitions h = .ok word h') :
    word = h.bus.board.repetitions ∧ h.bus.board.ReadOut .repetitions h'.bus.board := by
  have hread : Wire.readout .repetitions h = .ok word h' := by
    obtain ⟨⟨state, finished⟩, bus⟩ := h
    cases state with
    | runningInfinite | runningCounted _ => exact hok
    | _ => cases hok
  exact ⟨(Wire.readout_of_ok hread).2.1, Wire.board_of_readout hread⟩

end Controller

namespace Counting

/-- The records that are read are those that wait, and the readout before looks at nothing else. -/
lemma drainRecords_of_ok {σ : Type} {h h' : Held σ} {records : List Record}
    (hok : drainRecords h = .ok records h')
    (hfill : (h.bus.board.pipes Endpoint.counts).length < 2 ^ 33) :
    records = Record.readAll (h.bus.board.pipes Endpoint.counts) ∧
      ∃ b, h.bus.board.ReadOut .normalTotal b ∧ h'.bus.board = b.replay
        (Board.reading Endpoint.counts ((h.bus.board.pipes Endpoint.counts).length / 4 * 4)) := by
  obtain ⟨word, h₁, hread, htake⟩ := ok_of_bind hok
  have hword := (Wire.readout_of_ok hread).2.1
  have hleft := Wire.board_of_readout hread
  have hpipes : h₁.bus.board.pipes = h.bus.board.pipes := by
    rw [hleft.rest]
  -- the readout tells 16-bit words, two for each record
  have htold : word.toNat = (h.bus.board.pipes Endpoint.counts).length / 2 := by
    rw [hword]
    exact Board.toNat_fillWord hfill
  have hlength : word.toNat * 2 / 4 * 4 = (h.bus.board.pipes Endpoint.counts).length / 4 * 4 := by
    omega
  have hwithin : word.toNat * 2 / 4 * 4 ≤ (h₁.bus.board.pipes Endpoint.counts).length := by
    rw [hpipes, hlength]
    exact Nat.div_mul_le_self _ _
  have hdrained : Wire.take Endpoint.counts Record.ofBytes (word.toNat * 2 / 4 * 4) h₁ =
      .ok records h' := htake
  obtain ⟨hrest, hrecords⟩ := Wire.take_of_ok hwithin hdrained
  refine ⟨?_, h₁.bus.board, hleft, hlength ▸ hrest⟩
  rw [hrecords, hpipes, hlength, Word.readAll_take_whole]
  rfl

end Counting

namespace Instrument

variable {i i' : Instrument}

/-- A transaction on an attached board succeeds if its work does. -/
lemma transaction_of_work {α : Type} {work : Action Host α} {a : α} {held : Held Host}
    (hattached : i.link.attached = true) (hwork : work i.link.held = .ok a held) :
    ∃ i', transaction work i = .ok a i' := by
  simp only [transaction, onLink, Link.transaction, if_pos hattached, hwork]
  exact ⟨_, rfl⟩

/-- A poll of the instrument tells the done flag of the board. -/
lemma pollDone_of_ok {done : Bool} (hok : pollDone i = .ok done i') :
    done = i.board.done ∧ i.board.ReadOut .done i'.board := by
  obtain ⟨k, hwork, hheld⟩ := Action.ok_of_focus (transaction_of_ok hok).2
  rw [board, board, hheld]
  exact Controller.pollDone_of_ok hwork

/-- A question to the instrument for the repetitions tells those of the board. -/
lemma repetitions_of_ok {word : Word} (hok : repetitions i = .ok word i') :
    word = i.board.repetitions ∧ i.board.ReadOut .repetitions i'.board := by
  obtain ⟨k, hwork, hheld⟩ := Action.ok_of_focus (transaction_of_ok hok).2
  rw [board, board, hheld]
  exact Controller.repetitions_of_ok hwork

/-- The samples are those of the whole records that wait, if the total of their words can be
told. -/
lemma counts_of_ok {readTime : Float} {samples : List Sample}
    (hok : counts readTime i = .ok samples i')
    (hfill : (i.board.pipes Endpoint.counts).length < 2 ^ 33) :
    samples = Sample.ofRecords (Record.readAll (i.board.pipes Endpoint.counts))
        i.host.counting.collectionTime readTime ∧
      ∃ b, i.board.ReadOut .normalTotal b ∧ i'.board = b.replay
        (Board.reading Endpoint.counts ((i.board.pipes Endpoint.counts).length / 4 * 4)) := by
  obtain ⟨records, hr, hsamples⟩ := records_of_ok hok
  obtain ⟨k, hwork, hheld⟩ := Action.ok_of_focus (transaction_of_ok hr).2
  obtain ⟨hrecords, hleft⟩ := Counting.drainRecords_of_ok hwork hfill
  have hboard : i'.board = k.bus.board := by rw [board, hheld]
  rw [hsamples, hrecords, hboard]
  exact ⟨rfl, hleft⟩

/-- Where nothing is in the way, the questions are answered, the second one in a looped run. -/
structure Replies (i : Instrument) : Prop where
  done : ∃ done i', pollDone i = .ok done i'
  repetitions : (∃ word i', Instrument.repetitions i = .ok word i') ↔
    i.host.controller.state.isRunning = true ∧ i.host.controller.state ≠ .runningSingle
  counts : ∀ readTime, ∃ samples i', Instrument.counts readTime i = .ok samples i'

/-- On an attached board in its slot every question is answered if no fault lies in wait. -/
lemma replies (hattached : i.link.attached = true) (hpresent : i.board.present = true)
    (hfault : i.link.bus.fault = none) : i.Replies where
  done := by
    obtain ⟨done, k, hok⟩ := ((Controller.follows_pollDone (c := i.host.controller)).ok_iff
      hfault hpresent).mpr ⟨_, _, .pollDone true⟩
    obtain ⟨i', hi'⟩ := transaction_of_work hattached (Action.focus_of_ok hok)
    exact ⟨done, i', hi'⟩
  repetitions := by
    have hfollows := (Controller.follows_repetitions (c := i.host.controller)).ok_iff
      hfault hpresent
    constructor
    · rintro ⟨word, i', hok⟩
      obtain ⟨k, hwork, -⟩ := Action.ok_of_focus (transaction_of_ok hok).2
      obtain ⟨ps, c', hdoes⟩ := hfollows.mp ⟨word, k, hwork⟩
      cases hdoes with
      | repetitions hrunning hlooped => exact ⟨hrunning, hlooped⟩
    · rintro ⟨hrunning, hlooped⟩
      obtain ⟨word, k, hok⟩ := hfollows.mpr ⟨_, _, .repetitions hrunning hlooped⟩
      obtain ⟨i', hi'⟩ := transaction_of_work hattached (Action.focus_of_ok hok)
      exact ⟨word, i', hi'⟩
  counts readTime := by
    obtain ⟨samples, k, hok⟩ := ((Counting.follows_drain readTime (c := i.host.counting)).ok_iff
      hfault hpresent).mpr ⟨_, _, .drain readTime .none⟩
    obtain ⟨i', hi'⟩ := transaction_of_work hattached (Action.focus_of_ok hok)
    exact ⟨samples, i', hi'⟩

/-- What callers are told by the three questions to the board. -/
structure Answered (i : Instrument) (events : List Event) : Prop where
  /-- The done flag is the one that was last put on the board from outside. -/
  done : ∀ {done i'}, pollDone (i.run events) = .ok done i' →
    done = (events.filterMap Event.setsDone).getLast?.getD i.board.done ∧
      (i.run events).board.ReadOut .done i'.board
  /-- So is the number of repetitions. -/
  repetitions : ∀ {word i'}, Instrument.repetitions (i.run events) = .ok word i' →
    word = (events.filterMap Event.setsRepetitions).getLast?.getD i.board.repetitions ∧
      (i.run events).board.ReadOut .repetitions i'.board
  /-- The samples are those of the records that wait. -/
  counts : ∀ {readTime samples i'}, Instrument.counts readTime (i.run events) = .ok samples i' →
    ((i.run events).board.pipes Endpoint.counts).length < 2 ^ 33 →
      samples = Sample.ofRecords (Record.readAll ((i.run events).board.pipes Endpoint.counts))
        (i.run events).host.counting.collectionTime readTime ∧
        ∃ b, (i.run events).board.ReadOut .normalTotal b ∧
          i'.board = b.replay (Board.reading Endpoint.counts
            (((i.run events).board.pipes Endpoint.counts).length / 4 * 4))
  returned : (i.run events).link.attached = true → (i.run events).board.present = true →
    (i.run events).link.bus.fault = none → (i.run events).Replies

/-- Whatever was written to a board before, a readout answers the quantity that was asked for and
changes no other bits than it has to; and whatever happened to an instrument before, each of the
questions is answered with its own quantity. -/
theorem questions_answered :
    (∀ {σ : Type} (select : Readout) (h : Held σ), Wire.Answers select h) ∧
      ∀ (i : Instrument) (events : List Event), i.Answered events := by
  refine ⟨Wire.readout_answers, fun i events => ?_⟩
  obtain ⟨hdone, hrepetitions⟩ := i.counters_run events
  constructor
  case done =>
    intro done i' hok
    rw [← hdone]
    exact pollDone_of_ok hok
  case repetitions =>
    intro word i' hok
    rw [← hrepetitions]
    exact repetitions_of_ok hok
  case counts => exact counts_of_ok
  case returned => exact replies

/-- A board with every bit committed, other selectors staged and old values on the wires out. -/
def scrambled : Board where
  present := true
  staged := fun address => if address = Endpoint.control then some 0x00000057 else none
  wires := fun _ => Word.all
  latched := fun _ => 99
  done := true
  repetitions := 7
  pipes := fun _ => List.replicate 10 0
  programs := []
  log := []

/-- Whatever was staged and committed before, each question finds its own quantity, and the other
bits of the wires are those that were staged. -/
theorem scrambled_answered : ∀ select : Readout, ∃ word h',
    Wire.readout select ⟨(), .new scrambled⟩ = .ok word h' ∧
      word.toNat = (match select with | .done => 1 | .repetitions => 7 | .normalTotal => 5) ∧
      h'.bus.board.wires Endpoint.control = 0x00000007 ||| select.code ∧
      h'.bus.board.wires Endpoint.level = Word.all := by
  intro select
  have answers := questions_answered.1 select ⟨(), .new scrambled⟩
  obtain ⟨word, h', hok⟩ := answers.returns rfl rfl
  refine ⟨word, h', hok, (answers.word hok fun _ => by decide).trans ?_, ?_⟩
  · cases select <;> rfl
  · rw [(Wire.readout_of_ok hok).2.2]
    cases select <;> exact ⟨rfl, rfl⟩

end Instrument

end PulseSequencer

import PulseSequencer.Proofs.Board.Readout
import PulseSequencer.Proofs.Counting
import PulseSequencer.Proofs.Instrument.Effect
import PulseSequencer.Proofs.Instrument.FailedStart

/-!
# Reading records and time tags

Bytes arrive in the pipes at any moments and in any portions. Callers read whole records and whole
time tags, and any operation of a reading may fail. Nothing of what arrives is lost, read twice or
made up: what the readings answer, in order, and then what still waits, is what has arrived.

* `Wire.Drains`: an action that reads the whole words that wait in a pipe.
* `Instrument.Outlet`: a pipe that callers read in whole words; `Instrument.Outlet.counts`,
  `Instrument.Outlet.timetags`.
* `Instrument.Event.Reads`: readings, and what happens to the bus.
* `Instrument.Outlet.Lossless`: what is read in an event and in a run of events.
* `Instrument.sampled`: what callers are given as samples; `Instrument.map_told_sampled`, that it
  tells what the records tell.
* `Instrument.reads_intact`: every run of readings is lossless; `Instrument.halves_intact` is one in
  which words arrive in parts and a reading fails.
-/

namespace PulseSequencer

variable {α : Type}

namespace Wire

variable {σ τ : Type} {address : Address} {decode : Byte → Byte → Byte → Byte → α}

/-- An action that reads the whole words that wait in a pipe, as far as the board tells of them. If
it fails, the pipes are as they were. -/
structure Drains (x : Action σ (List α)) (address : Address)
    (decode : Byte → Byte → Byte → Byte → α) : Prop where
  state : ∀ h, (after x h).state = h.state
  of_ok : ∀ {h h' : Held σ} {items : List α}, x h = .ok items h' → ∃ length ps,
    length = (h.bus.board.fillWord address).toNat * 2 / 4 * 4 ∧
      h.bus.board.Draws address length ps ∧ h'.bus.board = h.bus.board.replay ps ∧
        items = Word.readAll decode ((h.bus.board.pipes address).take length)
  of_error : ∀ {h h' : Held σ} {e : Error}, x h = .error e h' → ∃ ps,
    h.bus.board.Draws address 0 ps ∧ h'.bus.board = h.bus.board.replay ps

/-- An action that asks the board what waits in a pipe, and leaves the pipes as they are. -/
structure Asks (ask : Action σ Word) (address : Address) : Prop where
  word : ∀ {h h' : Held σ} {words : Word}, ask h = .ok words h' →
    words = h.bus.board.fillWord address
  keeps : ∀ s, Keeps (OnState (· = s)) Primitive.LeavesPipes ask

/-- The readout of the normal total tells what waits in the pipe of counts. -/
lemma asks_readout : Asks (Wire.readout .normalTotal : Action σ Word) Endpoint.counts where
  keeps _ := .readout trivial trivial trivial trivial
  word hask := (readout_of_ok hask).2.1

/-- The total of time tags tells what waits in their pipe. -/
lemma asks_total :
    Asks (Wire.read Endpoint.timetagTotal : Action σ Word) Endpoint.timetags := by
  constructor
  case keeps => exact fun _ => .read trivial trivial
  case word =>
    intro h h' words hask
    obtain ⟨_, h₁, hlatch, hreply⟩ := ok_of_bind hask
    obtain ⟨-, -, hword⟩ := Action.carried_of_ok hreply
    rw [← Board.fillWord_of_total, hword, ← (Action.issue_of_ok hlatch).2]
    rfl

/-- Reads a number of bytes from a pipe, unless it is 0. -/
def take (address : Address) (decode : Byte → Byte → Byte → Byte → α) (length : Nat) :
    Action σ (List α) := do
  if length = 0 then return []
  else return Word.readAll decode (← Wire.readPipe address length)

/-- A reading of no more bytes than wait takes them out and decodes them. -/
lemma take_of_ok {length : Nat} {h h' : Held σ} {items : List α}
    (hlength : length ≤ (h.bus.board.pipes address).length)
    (hok : take address decode length h = .ok items h') :
    h'.bus.board = h.bus.board.replay (Board.reading address length) ∧
      items = Word.readAll decode ((h.bus.board.pipes address).take length) := by
  unfold take at hok
  split at hok
  case isTrue hzero =>
    cases hok
    simp [Board.reading, hzero, Word.readAll]
  case isFalse hpositive =>
    obtain ⟨bytes, h₁, hread, hpure⟩ := ok_of_bind hok
    cases hpure
    obtain ⟨-, hcarried, hbytes⟩ := Action.carried_of_ok hread
    rw [Board.reading, if_neg hpositive, ← Board.pipeBytes_of_le hlength]
    exact ⟨hcarried, congrArg _ hbytes⟩

/-- A reading that fails has not reached the pipe. -/
lemma take_of_error {length : Nat} {h h' : Held σ} {e : Error}
    (herror : take address decode length h = .error e h') : h'.bus.board = h.bus.board := by
  unfold take at herror
  split at herror
  case isTrue => cases herror
  case isFalse =>
    rcases error_of_bind herror with hread | ⟨_, _, _, hpure⟩
    · exact (Action.issue_of_error hread).2
    · cases hpure

/-- Reads every whole word of four bytes that the board tells of. -/
def drain (ask : Action σ Word) (address : Address) (decode : Byte → Byte → Byte → Byte → α) :
    Action σ (List α) := do
  let words ← ask
  take address decode (words.toNat * 2 / 4 * 4)

/-- To ask and then read what was told drains the pipe. -/
lemma drains_drain {ask : Action σ Word} (hask : Asks ask address) :
    Drains (drain ask address decode) address decode := by
  constructor
  case state =>
    intro h
    have keeps : Keeps (OnState (· = h.state)) (fun _ => True) (drain ask address decode) :=
      .bind ((hask.keeps h.state).mono fun _ _ => trivial) fun _ =>
        .ite (fun _ => .pure _) fun _ => .bind (.readPipe trivial) fun _ => .pure _
    exact (keeps.held rfl).1
  case of_ok =>
    intro h h' items hok
    obtain ⟨words, h₁, hwords, htake⟩ := ok_of_bind hok
    obtain ⟨-, asked, hasked, hboard⟩ := (hask.keeps h.state).held rfl
    rw [after_of_ok hwords] at hboard
    obtain rfl := hask.word hwords
    have hpipes : h₁.bus.board.pipes = h.bus.board.pipes := by
      rw [hboard, Board.pipes_replay hasked]
    have htold := h.bus.board.toNat_fillWord_le address
    -- rounded down to whole words twice, what is read is never more than waits
    generalize (h.bus.board.fillWord address).toNat = words at htake htold ⊢
    have hwithin : words * 2 / 4 * 4 ≤ (h.bus.board.pipes address).length := by omega
    obtain ⟨hread, hitems⟩ := take_of_ok (hpipes ▸ hwithin) htake
    refine ⟨_, _, rfl, ⟨Nat.dvd_mul_left _ _, hwithin, asked, hasked, rfl⟩, ?_, hpipes ▸ hitems⟩
    rw [hread, hboard, Board.replay_append]
  case of_error =>
    intro h h' e herror
    obtain ⟨-, asked, hasked, hboard⟩ := (hask.keeps h.state).held rfl
    refine ⟨asked, .zero hasked, ?_⟩
    rcases error_of_bind herror with hfirst | ⟨words, h₁, hwords, htake⟩
    · rw [← hboard, after_of_error hfirst]
    · rw [take_of_error htake, ← hboard, after_of_ok hwords]

/-- An action on a part of the state drains the same pipe. -/
lemma Drains.focus {get : τ → σ} {put : τ → σ → τ} {x : Action σ (List α)}
    (hput : ∀ t, put t (get t) = t) (hx : Drains x address decode) :
    Drains (Action.focus get put x) address decode := by
  constructor
  case state =>
    intro h
    rw [Action.after_focus, hx.state]
    exact hput h.state
  case of_ok =>
    intro h h' items hok
    obtain ⟨k, hwork, rfl⟩ := Action.ok_of_focus hok
    exact hx.of_ok (h := ⟨get h.state, h.bus⟩) hwork
  case of_error =>
    intro h h' e herror
    obtain ⟨k, hwork, rfl⟩ := Action.error_of_focus herror
    exact hx.of_error (h := ⟨get h.state, h.bus⟩) hwork

end Wire

/-! ## The two outlets -/

namespace Instrument

/-- A pipe that callers read in whole words: what the words stand for, and the commands that read
them. -/
structure Outlet (α : Type) where
  address : Address
  decode : Byte → Byte → Byte → Byte → α
  work : Action Host (List α)
  serves : Command → Bool
  drains : Wire.Drains work address decode
  work_eq : ∀ c, serves c = true → c.work = do let _ ← transaction work

/-- The samples of a reading are those of its records. -/
lemma counts_eq (readTime : Float) (i : Instrument) : counts readTime i =
    match transaction (Host.onCounting Counting.drainRecords) i with
    | .ok records i' =>
      .ok (Sample.ofRecords records i'.host.counting.collectionTime readTime) i'
    | .error e i' => .error e i' := by
  obtain ⟨⟨attached, connector, ⟨state, bus⟩⟩, registry, config, listeners⟩ := i
  cases attached with
  | false => rfl
  | true =>
    simp only [counts, transaction, onLink, Link.transaction, if_true, Host.onCounting]
    cases hr : Counting.drainRecords (⟨state.counting, bus⟩ : Held Counting) with
    | ok records h =>
      rw [Action.focus_of_ok (Counting.drain_of_ok hr), Action.focus_of_ok hr]
      rfl
    | error e h =>
      rw [Action.focus_of_error (Counting.drain_of_error hr), Action.focus_of_error hr]

/-- The counts are asked for in one transaction, and converted after it. -/
lemma work_counts (readTime : Float) : (Command.counts readTime).work = (do
    let _ ← transaction (Host.onCounting Counting.drainRecords)) := by
  funext i
  have hcounts := counts_eq readTime i
  cases hr : transaction (Host.onCounting Counting.drainRecords) i with
  | ok records i' =>
    rw [hr] at hcounts
    rw [Command.work, bind_of_ok hcounts, bind_of_ok hr]
  | error e i' =>
    rw [hr] at hcounts
    rw [Command.work, bind_of_error hcounts, bind_of_error hr]

namespace Outlet

/-- The pipe of count records. -/
def counts : Outlet Record where
  address := Endpoint.counts
  decode := Record.ofBytes
  work := Host.onCounting Counting.drainRecords
  serves
    | .counts _ => true
    | _ => false
  drains := (Wire.drains_drain Wire.asks_readout).focus fun _ => rfl
  work_eq
    | .counts readTime, _ => work_counts readTime

/-- The pipe of time tags. -/
def timetags : Outlet TimeTag where
  address := Endpoint.timetags
  decode := fun a b c d => ⟨Word.ofPipe a b c d⟩
  work := Host.drainTimetags
  serves
    | .timetags => true
    | _ => false
  drains := Wire.drains_drain Wire.asks_total
  work_eq
    | .timetags, _ => rfl

end Outlet

/-! ## One event -/

/-- The bytes that arrive in a pipe with an event. -/
def Event.pushed (address : Address) : Event → List Byte
  | bus (.pushPipe a bytes) => if a = address then bytes else []
  | _ => []

/-- The bytes that arrive in a pipe with events. -/
def arrived (address : Address) (events : List Event) : List Byte :=
  events.flatMap (Event.pushed address)

/-- A reading of one of the outlets, or something that happens to the bus. -/
def Event.Reads : Event → Prop
  | command c => Outlet.counts.serves c = true ∨ Outlet.timetags.serves c = true
  | bus _ => True

namespace Outlet

variable {o : Outlet α} {i : Instrument} {e : Event} {events : List Event}

/-- What an event reads from an outlet: nothing unless it is a reading that succeeds. -/
def answer (o : Outlet α) (i : Instrument) : Event → List α
  | .command c =>
    if o.serves c then
      match transaction o.work i with
      | .ok items _ => items
      | .error _ _ => []
    else []
  | .bus _ => []

/-- A reading that succeeds answers what its transaction does, -/
lemma answer_of_ok {c : Command} {items : List α} {i' : Instrument} (h : o.serves c = true)
    (hok : transaction o.work i = .ok items i') : o.answer i (.command c) = items := by
  rw [answer, if_pos h, hok]

/-- and one that fails answers nothing. -/
lemma answer_of_error {c : Command} {e : Error} {i' : Instrument} (h : o.serves c = true)
    (herror : transaction o.work i = .error e i') : o.answer i (.command c) = [] := by
  rw [answer, if_pos h, herror]

/-- However a reading ends, the host's state is as it was. -/
lemma host_after (o : Outlet α) (i : Instrument) :
    (after (transaction o.work) i).host = i.host := by
  by_cases hattached : i.link.attached = true
  · rw [host, Link.state, (after_transaction_of_attached _ hattached).1, o.drains.state]
    rfl
  · rw [after_of_error (transaction_of_detached _ hattached)]

/-- The commands that read an outlet leave the host's state as it was. -/
lemma host_of_serves {c : Command} (h : o.serves c = true) (i : Instrument) :
    (Event.apply i (.command c)).host = i.host := by
  rw [Event.apply, o.work_eq c h, after_discard, o.host_after]

/-- What events read from an outlet, one after the other. -/
def gathered (o : Outlet α) : Instrument → List Event → List α
  | _, [] => []
  | i, e :: rest => o.answer i e ++ o.gathered (e.apply i) rest

/-- What an event does to an outlet. Nothing is lost but what is read; a reading that succeeds
leaves less than a whole word; and the pipe is read only if a whole word waits, and not beyond what
waits. -/
structure Step (o : Outlet α) (i : Instrument) (e : Event) : Prop where
  readOff : Word.ReadOff o.decode (i.board.pipes o.address ++ e.pushed o.address) (o.answer i e)
    ((e.apply i).board.pipes o.address)
  emptied : ∀ c i', e = .command c → o.serves c = true → c.work i = .ok () i' →
    (i.board.pipes o.address).length < 2 ^ 33 → (i'.board.pipes o.address).length < 4
  reads : ∀ qs n, qs ++ [.readPipe o.address n] <+: i.issued e →
    4 ≤ ((i.board.replay qs).pipes o.address).length ∧
      n ≤ ((i.board.replay qs).pipes o.address).length

/-- How a reading of an outlet ends. -/
inductive Reading (o : Outlet α) (i : Instrument) (c : Command) : Prop where
  | done {i' : Instrument} {length : Nat} {ps : List Primitive} (ok : c.work i = .ok () i')
      (board : i'.board = i.board.replay ps) (draws : i.board.Draws o.address length ps)
      (told : length = (i.board.fillWord o.address).toNat * 2 / 4 * 4)
      (answer : o.answer i (.command c) =
        Word.readAll o.decode ((i.board.pipes o.address).take length)) : Reading o i c
  | failed {i' : Instrument} {e : Error} {ps : List Primitive} (error : c.work i = .error e i')
      (board : i'.board = i.board.replay ps) (draws : i.board.Draws o.address 0 ps)
      (answer : o.answer i (.command c) = []) : Reading o i c

/-- A command that reads an outlet ends in one of these ways. -/
lemma reading {c : Command} (h : o.serves c = true) (i : Instrument) : o.Reading i c := by
  have hwork := congrFun (o.work_eq c h) i
  cases hr : transaction o.work i with
  | ok items i' =>
    rw [bind_of_ok hr] at hwork
    obtain ⟨-, hheld⟩ := transaction_of_ok hr
    obtain ⟨length, ps, told, draws, board, hitems⟩ := o.drains.of_ok hheld
    exact .done hwork board draws told ((answer_of_ok h hr).trans hitems)
  | error e i' =>
    rw [bind_of_error hr] at hwork
    have hanswer := answer_of_error h hr
    rcases transaction_cases_of_error hr with ⟨-, rfl⟩ | ⟨hheld, -⟩
    · exact .failed hwork rfl (.zero (List.forall_mem_nil _)) hanswer
    · obtain ⟨ps, draws, board⟩ := o.drains.of_error hheld
      exact .failed hwork board draws hanswer

/-- However a reading ends, the board is that after some operations, which draw a number of
bytes. -/
lemma Reading.board {c : Command} (h : o.Reading i c) : ∃ length ps,
    i.board.Draws o.address length ps ∧ (Event.apply i (.command c)).board = i.board.replay ps := by
  cases h with
  | done ok board draws => exact ⟨_, _, draws, by rw [Event.apply, after_of_ok ok, board]⟩
  | failed error board draws =>
    exact ⟨_, _, draws, by rw [Event.apply, after_of_error error, board]⟩

/-- A reading does to its outlet what it should. -/
lemma step_of_serves {c : Command} (h : o.serves c = true) (i : Instrument) :
    o.Step i (.command c) := by
  have hreading := o.reading h i
  obtain ⟨length, ps, hdraws, hboard⟩ := hreading.board
  constructor
  case readOff =>
    show Word.ReadOff _ (_ ++ []) _ _
    rw [List.append_nil]
    cases hreading with
    | done ok board draws told answer =>
      rw [answer, Event.apply, after_of_ok ok, board, draws.pipes, setAt_same]
      exact .take draws.whole draws.within
    | failed error board draws answer =>
      rw [answer, Event.apply, after_of_error error, board, draws.pipes, setAt_same]
      exact .nil _
  case emptied =>
    intro c' i' hc _ hok hfill
    cases hc
    cases hreading with
    | done ok board draws told answer =>
      cases hok.symm.trans ok
      -- all whole words were taken, so fewer than four bytes are left
      rw [board, draws.pipes, setAt_same, List.length_drop, told, Board.toNat_fillWord hfill]
      omega
    | failed error => cases hok.symm.trans error
  case reads =>
    intro qs n hread
    rw [issued_of_replay hboard] at hread
    exact hdraws.le_of_readPipe hread

/-- A reading of another outlet leaves this one. -/
lemma step_of_other {β : Type} {o' : Outlet β} {c : Command} (h : o.serves c = false)
    (h' : o'.serves c = true) (hne : o.address ≠ o'.address) (i : Instrument) :
    o.Step i (.command c) := by
  obtain ⟨length, ps, hdraws, hboard⟩ := (o'.reading h' i).board
  constructor
  case readOff =>
    have hanswer : o.answer i (.command c) = [] := by rw [answer, h]; rfl
    show Word.ReadOff _ (_ ++ []) _ _
    rw [List.append_nil, hanswer, hboard, hdraws.pipes, setAt_ne _ _ hne]
    exact .nil _
  case emptied =>
    intro c' i' hc hserves
    cases hc
    rw [h] at hserves
    cases hserves
  case reads =>
    intro qs n hread
    rw [issued_of_replay hboard] at hread
    exact hdraws.le_of_readPipe hread

/-- What happens to the bus reads nothing, and at most adds to what waits. -/
lemma step_bus (o : Outlet α) (i : Instrument) (e : BusEvent) : o.Step i (.bus e) := by
  have hissued : i.issued (.bus e) = [] := by
    have hlog : (Event.apply i (.bus e)).board.log = i.board.log := by cases e <;> rfl
    rw [issued, hlog, List.drop_length]
  constructor
  case readOff =>
    have hpipe : (Event.apply i (.bus e)).board.pipes o.address =
        i.board.pipes o.address ++ Event.pushed o.address (.bus e) := by
      cases e with
      | pushPipe address bytes =>
        show setAt i.board.pipes address (i.board.pipes address ++ bytes) o.address =
          _ ++ if address = o.address then bytes else []
        by_cases haddress : address = o.address
        · rw [haddress, setAt_same, if_pos rfl]
        · rw [setAt_ne _ _ (Ne.symm haddress), if_neg haddress, List.append_nil]
      | _ => exact (List.append_nil _).symm
    rw [hpipe]
    exact .nil _
  case emptied =>
    intro c i' hc
    cases hc
  case reads =>
    intro qs n hread
    rw [hissued] at hread
    exact absurd (List.prefix_nil.mp hread) (by simp)

/-- Every event of the intake does to the counts what it should. -/
lemma step_counts (h : e.Reads) : counts.Step i e := by
  cases e with
  | bus e => exact counts.step_bus i e
  | command c =>
    rcases h with h | h
    · exact step_of_serves h i
    · refine step_of_other ?_ h (by decide) i
      cases c <;> first | rfl | cases h

/-- Every event of the intake does to the time tags what it should. -/
lemma step_timetags (h : e.Reads) : timetags.Step i e := by
  cases e with
  | bus e => exact timetags.step_bus i e
  | command c =>
    rcases h with h | h
    · refine step_of_other ?_ h (by decide) i
      cases c <;> first | rfl | cases h
    · exact step_of_serves h i

/-! ## Runs -/

/-- In a run nothing is lost but what is read, in order, and each event does as it should. -/
structure Lossless (o : Outlet α) (i : Instrument) (events : List Event) : Prop where
  readOff : Word.ReadOff o.decode (i.board.pipes o.address ++ arrived o.address events)
    (o.gathered i events) ((i.run events).board.pipes o.address)
  step : ∀ before e later, events = before ++ e :: later → o.Step (i.run before) e

/-- If every event does as it should, a run loses nothing. -/
lemma lossless (step : ∀ i, ∀ e ∈ events, o.Step i e) (i : Instrument) : o.Lossless i events := by
  constructor
  case readOff =>
    induction events generalizing i with
    | nil =>
      show Word.ReadOff _ (_ ++ []) _ _
      rw [List.append_nil]
      exact .nil _
    | cons e rest ih =>
      show Word.ReadOff _ (_ ++ (e.pushed o.address ++ arrived o.address rest)) _ _
      rw [← List.append_assoc]
      exact (step i e List.mem_cons_self).readOff.trans
        (ih (fun i e he => step i e (List.mem_cons_of_mem _ he)) (e.apply i))
  case step =>
    rintro before e later rfl
    exact step _ e (List.mem_append_right _ List.mem_cons_self)

end Outlet

variable {i : Instrument} {events : List Event}

/-- A reading that succeeds has read records, and gives them as samples. -/
lemma records_of_ok {readTime : Float} {samples : List Sample} {i' : Instrument}
    (hok : counts readTime i = .ok samples i') : ∃ records,
    transaction (Host.onCounting Counting.drainRecords) i = .ok records i' ∧
      samples = Sample.ofRecords records i.host.counting.collectionTime readTime := by
  rw [counts_eq] at hok
  cases hr : transaction (Host.onCounting Counting.drainRecords) i with
  | error e j =>
    rw [hr] at hok
    cases hok
  | ok records j =>
    rw [hr] at hok
    cases hok
    have hhost := Outlet.counts.host_after i
    rw [after_of_ok (x := transaction Outlet.counts.work) hr] at hhost
    exact ⟨records, rfl, by rw [hhost]⟩

/-- A reading that fails has not read records. -/
lemma records_of_error {readTime : Float} {e : Error} {i' : Instrument}
    (herror : counts readTime i = .error e i') :
    transaction (Host.onCounting Counting.drainRecords) i = .error e i' := by
  rw [counts_eq] at herror
  cases hr : transaction (Host.onCounting Counting.drainRecords) i with
  | ok records j =>
    rw [hr] at herror
    cases herror
  | error e' j =>
    rw [hr] at herror
    cases herror
    rfl

/-- The samples of a reading are those of the records that it has read. -/
lemma samples_of_ok {readTime : Float} {samples : List Sample} {i' : Instrument}
    (hok : counts readTime i = .ok samples i') :
    samples = Sample.ofRecords (Outlet.counts.answer i (.command (.counts readTime)))
      i.host.counting.collectionTime readTime := by
  obtain ⟨records, hr, hsamples⟩ := records_of_ok hok
  rw [hsamples, Outlet.answer_of_ok (o := Outlet.counts) rfl hr]

/-! ## What callers are given -/

/-- The samples that an event gives to its caller: those of a reading of the counts that
succeeds. -/
def Event.samples (i : Instrument) : Event → List Sample
  | command (.counts readTime) =>
    match Instrument.counts readTime i with
    | .ok samples _ => samples
    | .error _ _ => []
  | _ => []

/-- The samples that events give to their callers, one after the other. -/
def sampled : Instrument → List Event → List Sample
  | _, [] => []
  | i, e :: rest => e.samples i ++ sampled (e.apply i) rest

/-- The samples that an event gives tell what the records tell that it has read. -/
lemma map_told_samples (i : Instrument) (e : Event) : (e.samples i).map Sample.told =
    (Outlet.counts.answer i e).map (Record.told i.host.counting.collectionTime) := by
  cases e with
  | bus e => rfl
  | command c =>
    cases c with
    | counts readTime =>
      cases hr : Instrument.counts readTime i with
      | ok samples i' =>
        have hsamples : Event.samples i (.command (.counts readTime)) = samples := by
          rw [Event.samples, hr]
        rw [hsamples, samples_of_ok hr]
        exact (Sample.of_ofRecords _ _ _).map_told
      | error e i' =>
        have hsamples : Event.samples i (.command (.counts readTime)) = [] := by
          rw [Event.samples, hr]
        have hanswer : Outlet.counts.answer i (.command (.counts readTime)) = [] :=
          Outlet.answer_of_error (o := Outlet.counts) rfl (records_of_error hr)
        rw [hsamples, hanswer]
        rfl
    | _ => rfl

/-- What happens while records and time tags are read leaves the host's state as it was. -/
lemma host_of_reads {e : Event} (h : e.Reads) (i : Instrument) : (e.apply i).host = i.host := by
  cases e with
  | bus e => rfl
  | command c =>
    rcases h with h | h
    · exact Outlet.host_of_serves h i
    · exact Outlet.host_of_serves h i

/-- What callers are given in a run tells what the records tell that were read, in order. -/
lemma map_told_sampled (h : ∀ e ∈ events, e.Reads) (i : Instrument) :
    (i.sampled events).map Sample.told = (Outlet.counts.gathered i events).map
      (Record.told i.host.counting.collectionTime) := by
  induction events generalizing i with
  | nil => rfl
  | cons e rest ih =>
    obtain ⟨he, hrest⟩ := List.forall_mem_cons.mp h
    rw [sampled, Outlet.gathered, List.map_append, List.map_append, map_told_samples, ih hrest,
      host_of_reads he]

/-- Readings lose, repeat and make up nothing. -/
structure Intact (i : Instrument) (events : List Event) : Prop where
  counts : Outlet.counts.Lossless i events
  timetags : Outlet.timetags.Lossless i events
  /-- What the samples tell that callers are given, in order, and then the bytes that still wait, is
  what has arrived. -/
  given : Word.ReadOff (Record.tell i.host.counting.collectionTime)
    (i.board.pipes Endpoint.counts ++ arrived Endpoint.counts events)
    ((i.sampled events).map Sample.told) ((i.run events).board.pipes Endpoint.counts)
  /-- The caller of a reading is given a sample for each record that was read, -/
  samples : ∀ before readTime later samples i',
    events = before ++ .command (.counts readTime) :: later →
      Instrument.counts readTime (i.run before) = .ok samples i' →
        Sample.Of (Outlet.counts.answer (i.run before) (.command (.counts readTime)))
          (i.run before).host.counting.collectionTime readTime samples
  /-- or the time tags that were read. -/
  tags : ∀ before later tags i', events = before ++ .command .timetags :: later →
    Instrument.timetags (i.run before) = .ok tags i' →
      tags = Outlet.timetags.answer (i.run before) (.command .timetags)
  record : ∀ a b c d, (Outlet.counts.decode a b c d).count.toNat = Word.little a b c d % 2 ^ 31 ∧
    ((Outlet.counts.decode a b c d).light = .off ↔ 2 ^ 31 ≤ Word.little a b c d)
  /-- The high half of a tag comes first. -/
  tag : ∀ a b c d, (Outlet.timetags.decode a b c d).offset.toNat = Word.little c d a b
  /-- Of offsets that arrive the first ones are read, in order, and the others wait. -/
  offsets : ∀ offsets : List Word,
    i.board.pipes Endpoint.timetags ++ arrived Endpoint.timetags events =
      offsets.flatMap Word.toPipe → ∃ left,
        offsets = (Outlet.timetags.gathered i events).map TimeTag.offset ++ left ∧
          (i.run events).board.pipes Endpoint.timetags = left.flatMap Word.toPipe

/-- Every run of readings, with whatever happens to the bus, loses, repeats and makes up nothing. -/
theorem reads_intact (i : Instrument) (h : ∀ e ∈ events, e.Reads) : i.Intact events := by
  have countsLossless : Outlet.counts.Lossless i events :=
    Outlet.lossless (fun _ e he => Outlet.step_counts (h e he)) i
  have tagsLossless : Outlet.timetags.Lossless i events :=
    Outlet.lossless (fun _ e he => Outlet.step_timetags (h e he)) i
  constructor
  case counts => exact countsLossless
  case timetags => exact tagsLossless
  case given =>
    have hread := countsLossless.readOff.map (Record.told i.host.counting.collectionTime)
    -- light and rate of a sample are told by the bytes of its record
    have htell : (fun a b c d => (Outlet.counts.decode a b c d).told
        i.host.counting.collectionTime) = Record.tell i.host.counting.collectionTime := by
      funext a b c d
      exact Record.told_ofBytes _ a b c d
    rw [htell] at hread
    rw [map_told_sampled h]
    exact hread
  case samples =>
    intro before readTime later samples i' _ hok
    rw [samples_of_ok hok]
    exact Sample.of_ofRecords _ _ _
  case tags =>
    intro before later tags i' _ hok
    exact (Outlet.answer_of_ok (o := Outlet.timetags) rfl hok).symm
  case record => exact Record.ofBytes_eq
  case tag => exact fun a b c d => Word.toNat_ofBytes b a d c
  case offsets =>
    intro offsets harrived
    have hread := tagsLossless.readOff.map TimeTag.offset
    rw [show Outlet.timetags.address = Endpoint.timetags from rfl, harrived] at hread
    exact Word.ReadOff.words hread

/-- A record and a part of the next one arrive, then the rest, and a time tag; one of the readings
fails when it reads the pipe. -/
def halves : List Event :=
  [.bus (.pushPipe Endpoint.counts [1, 0, 0, 0, 7]), .command (.counts 0),
    .bus (.pushPipe Endpoint.counts [0, 0, 128, 9]),
    .bus (.expect (some ⟨4, .reported (.failed "pipe" "link")⟩)), .command (.counts 0),
    .bus (.pushPipe Endpoint.timetags (Word.toPipe 70000)), .command .timetags,
    .command (.counts 0)]

/-- Nothing of a record is lost that arrives in two parts, with a failed reading in between: each of
the two records becomes one sample, and a single byte still waits. -/
theorem halves_intact :
    (∀ e ∈ halves, e.Reads) ∧ (after connect unconnected).Intact halves ∧
      ((after connect unconnected).sampled halves).map Sample.told = [(0.01, .on), (0.07, .off)] ∧
      Outlet.counts.gathered (after connect unconnected) halves = [⟨1, .on⟩, ⟨7, .off⟩] ∧
      Outlet.timetags.gathered (after connect unconnected) halves = [⟨70000⟩] ∧
      ((after connect unconnected).run halves).board.pipes Endpoint.counts = [9] := by
  have hreads : ∀ e ∈ halves, e.Reads := by
    simp [halves, Event.Reads, Outlet.counts, Outlet.timetags]
  exact ⟨hreads, reads_intact _ hreads, by decide +kernel, by decide +kernel, by decide +kernel,
    by decide +kernel⟩

end Instrument

end PulseSequencer

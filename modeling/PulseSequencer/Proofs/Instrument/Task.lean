import PulseSequencer.Instrument
import PulseSequencer.Proofs.Sequencer.Outcome

/-!
# What the transactions of an instrument do

Work on an attached board is one of a few tasks. As the commands of the sequencer, each of them is
refused before anything is done, or it brings operations to the board and leaves a state. A task
that fails on the way leaves the lines as they were. A board that was just attached is brought to
the host's state by one fixed list of operations.

* `Counting.Request`, `Counting.Does`: the requests of counting, and what they do.
* `Host.Task`, `Host.Does`: the tasks, and what they do.
* `Host.Task.follows`: a task is refused or does that.
* `Host.follows_initialise`: what the initialisation of a board does.
-/

namespace PulseSequencer

/-- The operations that read what waits in a pipe: none if nothing does. -/
inductive Wire.Reading (address : Address) : List Primitive → Prop where
  | none : Reading address []
  | some (length : Nat) : Reading address [.readPipe address length]

/-- Operations that read a pipe write no field. -/
lemma Wire.Reading.writeOnly {address : Address} {ps : List Primitive}
    (h : Wire.Reading address ps) : Primitive.WriteOnly [] ps := by
  cases h <;> simp [Primitive.WriteOnly]

/-! ## Counting -/

namespace Counting

/-- A request to the counting of a board. -/
inductive Request where
  | apply
  | setMode (mode : CollectionMode)
  | setNormalTime (seconds : Float)
  | drain (readTime : Float)
  | resetFifo

/-- The work of a request; what it answers is left out. -/
def Request.work : Request → Action Counting Unit
  | apply => Counting.apply
  | setMode mode => Counting.setMode mode
  | setNormalTime seconds => Counting.setNormalTime seconds
  | drain readTime => do let _ ← Counting.drain readTime
  | resetFifo => Counting.resetFifo

/-- The operations that write the setup to the board. -/
def applying (c : Counting) : List Primitive :=
  [.setWire Endpoint.control c.mode.bits Control.counting,
    .setWire Endpoint.countRate c.rateWord Word.all, .commit]

/-- What an accepted request does on a setup `c`: the operations that it brings to the board, and
the setup that it leaves. -/
inductive Does (c : Counting) : Request → List Primitive → Counting → Prop where
  | apply : Does c .apply c.applying c
  | setMode (mode : CollectionMode) :
      Does c (.setMode mode)
        ({ c with mode }.applying ++ [.trigger Endpoint.trigger Pulse.resetCounts]) { c with mode }
  | setNormalTime {seconds : Float} {c' : Counting} (h : c.store seconds .normal = .ok c') :
      Does c (.setNormalTime seconds)
        [.trigger Endpoint.trigger Pulse.resetCounts,
          .setWire Endpoint.countRate c'.rateWord Word.all, .commit] c'
  | drain (readTime : Float) {ps : List Primitive} (h : Wire.Reading Endpoint.counts ps) :
      Does c (.drain readTime) (Wire.asking .normalTotal ++ ps) c
  | resetFifo : Does c .resetFifo [.trigger Endpoint.trigger Pulse.resetCounts] c

variable {c c' : Counting}

/-- A request that is accepted leaves nothing staged. -/
lemma Does.settles {request : Request} {ps : List Primitive} (h : c.Does request ps c') :
    ps.foldl Primitive.settles true = true := by
  cases h with
  | drain _ hps => cases hps <;> rfl
  | _ => rfl

/-- The fields that requests write to. -/
def fields : List (Address × Word) :=
  [(Endpoint.control, Control.counting), (Endpoint.countRate, Word.all),
    (Endpoint.control, Control.readout)]

/-- To tell the board of the setup writes the fields of the counters. -/
lemma writeOnly_applying (c : Counting) : Primitive.WriteOnly fields c.applying := by
  simp [Primitive.WriteOnly, applying, fields]

/-- Requests write to the fields of the counting and of the readout only. -/
lemma Does.writeOnly {request : Request} {ps : List Primitive} (h : c.Does request ps c') :
    Primitive.WriteOnly fields ps := by
  cases h with
  | apply => exact writeOnly_applying c
  | setMode mode => exact (writeOnly_applying _).append (by simp [Primitive.WriteOnly])
  | setNormalTime _ => simp [Primitive.WriteOnly, fields]
  | drain _ hps =>
    exact ((Wire.writeOnly_asking _).mono (by simp [fields])).append
      (hps.writeOnly.mono (List.nil_subset _))
  | resetFifo => simp [Primitive.WriteOnly]

/-- To tell the board of the setup brings its operations, and leaves the setup. -/
lemma brings_apply {E : Unit → List Primitive → Counting → Prop}
    {F : List Primitive → Counting → Prop} (hF : ∀ ps, F ps c) (hE : E () c.applying c) :
    Brings Counting.apply c E F :=
  .state_bind (.issue_bind (hF _) fun _ => .issue_bind (hF _) fun _ => .issue (hF _) fun _ => hE)

/-- A reading of the records asks for the total and reads the pipe if something waits. -/
lemma brings_drainRecords {σ : Type} {s : σ} {E : List Record → List Primitive → σ → Prop}
    {F : List Primitive → σ → Prop} (hF : ∀ ps, F ps s)
    (hE : ∀ records ps, Wire.Reading Endpoint.counts ps →
      E records (Wire.asking .normalTotal ++ ps) s) : Brings drainRecords s E F := by
  refine .bind (.readout (fun _ => hF _) fun words => .ite (fun _ => ?_) fun _ => ?_)
  · exact .pure (hE _ _ .none)
  · exact .issue_bind (hF _) fun _ => .pure (hE _ _ (.some _))

/-- A reading of the counts does what it should. -/
lemma follows_drain (readTime : Float) :
    Follows (Counting.drain readTime) c (Does c (.drain readTime)) fun _ _ => True := by
  refine .inr (.bind (brings_drainRecords (fun _ => trivial) fun records ps hps => ?_))
  refine .state_bind (.pure ?_)
  rw [List.append_nil]
  exact .drain readTime hps

/-- A request is accepted exactly if there is something for it to do, and does that. -/
theorem Request.follows (request : Request) (c : Counting) :
    Follows request.work c (Does c request) fun _ _ => True := by
  cases request with
  | apply => exact .inr (brings_apply (fun _ => trivial) .apply)
  | setMode mode =>
    refine .inr (.change_bind (.bind (brings_apply (fun _ => trivial) ?_)))
    exact .issue trivial fun _ => .setMode mode
  | setNormalTime seconds =>
    cases h : c.store seconds .normal with
    | error e =>
      refine .inl ⟨.state_bind (.bind (.ofExcept h)), fun ps c' hdoes => ?_⟩
      cases hdoes with
      | setNormalTime hstore => cases h.symm.trans hstore
    | ok c' =>
      refine .inr (.state_bind (.ofExcept_bind h (.change_bind ?_)))
      refine .issue_bind trivial fun _ => .issue_bind trivial fun _ => .issue trivial fun _ => ?_
      exact .setNormalTime h
  | drain readTime => exact (follows_drain readTime).discard
  | resetFifo => exact .inr (.issue trivial fun _ => .resetFifo)

end Counting

/-! ## The host -/

namespace Host

/-- Work on an attached board. -/
inductive Task where
  | sequencer (command : Controller.Command)
  | counting (request : Counting.Request)
  | readout (select : Readout)
  | switchLine (index : UInt8) (update : LineState → LineState)
  | timetags
  | resetTimetags

/-- The work of a task; what it answers is left out. -/
def Task.work : Task → Action Host Unit
  | sequencer command => onController command.work
  | counting request => onCounting request.work
  | readout select => do let _ ← Wire.readout select
  | switchLine index update => do let _ ← Host.switchLine index update
  | timetags => do let _ ← drainTimetags
  | resetTimetags => Wire.trigger Pulse.resetTimetags

/-- The operations that write the bits of a line to the board. -/
def switching (index : UInt8) (line : LineState) : List Primitive :=
  [.setWire Endpoint.manual (bitIf index line.manual) (BitVec.twoPow 32 index.toNat),
    .setWire Endpoint.level (bitIf index line.levelBit) (BitVec.twoPow 32 index.toNat), .commit]

/-- A switch writes the two bits of its line. -/
lemma writeOnly_switching (index : UInt8) (line : LineState) :
    Primitive.WriteOnly [(Endpoint.manual, BitVec.twoPow 32 index.toNat),
      (Endpoint.level, BitVec.twoPow 32 index.toNat)] (switching index line) := by
  simp [Primitive.WriteOnly, switching]

/-- What an accepted task does on a host `h`: the operations that it brings to the board, and the
host that it leaves. -/
inductive Does (h : Host) : Task → List Primitive → Host → Prop where
  | sequencer {command : Controller.Command} {ps : List Primitive} {controller : Controller}
      (hdoes : h.controller.Does command ps controller) :
      Does h (.sequencer command) ps { h with controller }
  | counting {request : Counting.Request} {ps : List Primitive} {counting : Counting}
      (hdoes : h.counting.Does request ps counting) :
      Does h (.counting request) ps { h with counting }
  | readout (select : Readout) : Does h (.readout select) (Wire.asking select) h
  | switchLine {index : UInt8} (hindex : index.toNat < lineLimit)
      (update : LineState → LineState) :
      Does h (.switchLine index update)
        (switching index (update ((h.lines index).getD default)))
        { h with lines := h.lines.insert index (update ((h.lines index).getD default)) }
  | timetags {ps : List Primitive} (hps : Wire.Reading Endpoint.timetags ps) :
      Does h .timetags ([.latch, .readWire Endpoint.timetagTotal] ++ ps) h
  | resetTimetags : Does h .resetTimetags [.trigger Endpoint.trigger Pulse.resetTimetags] h

/-- What a task leaves of a host `h` if it fails after operations `ps`: the lines are as they were,
and so is the controller, unless an operation reached the board. -/
structure Interrupted (h : Host) (ps : List Primitive) (h' : Host) : Prop where
  lines : h'.lines = h.lines
  controller : Untouched h.controller ps h'.controller

variable {h h' : Host}

/-- A task that is accepted leaves nothing staged. -/
lemma Does.settles {task : Task} {ps : List Primitive} (hdoes : h.Does task ps h') :
    ps.foldl Primitive.settles true = true := by
  cases hdoes with
  | sequencer hdoes => exact hdoes.settles
  | counting hdoes => exact hdoes.settles
  | timetags hps => cases hps <;> rfl
  | _ => rfl

/-- A host that is as it was may be what an interrupted task leaves. -/
lemma interrupted_self (ps : List Primitive) : h.Interrupted ps h := ⟨rfl, untouched_self ps⟩

/-- A switch of a line does what it should. -/
lemma follows_switchLine (index : UInt8) (update : LineState → LineState) :
    Follows (Host.switchLine index update) h (Does h (.switchLine index update)) h.Interrupted := by
  by_cases hindex : lineLimit ≤ index.toNat
  · refine .inl ⟨.state_bind (.bind ?_), fun ps h' hdoes => ?_⟩
    · rw [writeLine, if_pos hindex]
      exact .bind (.throw _)
    · cases hdoes with
      | switchLine hlt => exact absurd hindex (Nat.not_le_of_lt hlt)
  · refine .inr (.state_bind (.bind ?_))
    rw [writeLine, if_neg hindex]
    refine .issue_bind (interrupted_self _) fun _ => .issue_bind (interrupted_self _) fun _ => ?_
    refine .issue (interrupted_self _) fun _ => .change_bind (.pure ?_)
    exact .switchLine (Nat.lt_of_not_le hindex) update

/-- A reading of the time tags does what it should. -/
lemma follows_timetags : Follows drainTimetags h (Does h .timetags) h.Interrupted := by
  refine .inr (.bind (.issue_bind (interrupted_self _) fun _ => .issue (interrupted_self _) ?_))
  refine fun words => .ite (fun _ => ?_) fun _ => ?_
  · exact .pure (.timetags .none)
  · exact .issue_bind (interrupted_self _) fun _ => .pure (.timetags (.some _))

/-- A task is accepted exactly if there is something for it to do, and does that. -/
theorem Task.follows (task : Task) (h : Host) :
    Follows task.work h (Does h task) h.Interrupted := by
  cases task with
  | sequencer command =>
    rw [work, onController]
    refine .focus rfl (fun ps c => .sequencer) (fun ps h' hdoes => ?_)
      (fun ps c hc => ⟨rfl, hc⟩) (command.follows h.controller)
    cases hdoes with
    | sequencer hdoes => exact ⟨_, hdoes⟩
  | counting request =>
    rw [work, onCounting]
    refine .focus rfl (fun ps c => .counting) (fun ps h' hdoes => ?_)
      (fun ps c _ => ⟨rfl, untouched_self ps⟩) (request.follows h.counting)
    cases hdoes with
    | counting hdoes => exact ⟨_, hdoes⟩
  | readout select =>
    exact .inr (Brings.discard (.readout (fun _ => interrupted_self _) fun _ => .readout select))
  | switchLine index update => exact (follows_switchLine index update).discard
  | timetags => exact follows_timetags.discard
  | resetTimetags => exact .inr (.issue (interrupted_self _) fun _ => .resetTimetags)

/-- The operations that bring a board to the state of a host whose lines are in `r`. -/
def initialising (h : Host) (r : LineRegister) : List Primitive :=
  [.setWire Endpoint.manual r.manual Word.all, .setWire Endpoint.level r.level Word.all, .commit] ++
    h.counting.applying ++
      [.trigger Endpoint.trigger Pulse.resetCounts, .trigger Endpoint.trigger Pulse.resetDds]

/-- The initialisation writes the words of the lines and the fields of the counters. -/
lemma writeOnly_initialising (h : Host) (r : LineRegister) :
    Primitive.WriteOnly ([(Endpoint.manual, Word.all), (Endpoint.level, Word.all)] ++
      Counting.fields) (h.initialising r) := by
  have happlying := (Counting.writeOnly_applying h.counting).mono
    (List.subset_append_right [(Endpoint.manual, Word.all), (Endpoint.level, Word.all)] _)
  refine .append (.append ?_ happlying) ?_ <;> simp [Primitive.WriteOnly]

/-- The initialisation leaves nothing staged. -/
lemma settles_initialising (h : Host) (r : LineRegister) :
    (h.initialising r).foldl Primitive.settles true = true := rfl

/-- The initialisation of a board brings it to the host's state, and the host takes its sequencer to
have no program. If it fails, the host is as it was. -/
theorem follows_initialise (h : Host) :
    Follows initialise h
      (fun ps h' => ∃ r, h.lines.register = .ok r ∧ ps = h.initialising r ∧
        h' = { h with controller := .idle })
      fun _ h' => h' = h := by
  cases hr : h.lines.register with
  | error e =>
    refine .inl ⟨.state_bind (.bind (.ofExcept hr)), fun ps h' hdoes => ?_⟩
    obtain ⟨r, hok, -⟩ := hdoes
    cases hok
  | ok r =>
    refine .inr (.state_bind (.ofExcept_bind hr (.issue_bind rfl fun _ => ?_)))
    refine .issue_bind rfl fun _ => .issue_bind rfl fun _ => ?_
    refine .bind (.focus (Counting.brings_apply (fun _ => rfl) ?_))
    refine .bind (.focus (.issue rfl fun _ => .issue_bind rfl fun _ => .change ?_))
    exact ⟨r, rfl, rfl, rfl⟩

end Host

end PulseSequencer

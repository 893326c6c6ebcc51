import PulseSequencer.Proofs.Machine.Arithmetic
import PulseSequencer.Proofs.Instrument.Sound
import PulseSequencer.Proofs.Line

/-!
# Work that is never trapped

Work on a board fails with what the bus reports, or because it is refused. `Returns I x w` says of
`x` that it keeps `I`, and that it is not trapped, if it begins at `w` and `I` holds there. Its
rules follow the way work is put together, so that it is enough to look at refusals, one by one.

* `Failure.IsReported`: a failure that does not take its issuer along.
* `Returns`: the judgment, with a rule for each way in which work is put together.
* `Controller.returns_program` and others: the work of the sequencer, of counting and of the host.
* `Host.returns_initialise`, `Host.returns_switchLine`: the work that addresses lines; it relies on
  these being lines of the board.
* `Link.returns_transaction`, `Link.returns_connect`: a link is trapped only if the work on it is.
-/

namespace PulseSequencer

/-- A failure that is reported, and does not take its issuer along. -/
def Failure.IsReported (f : Failure) : Prop := ∃ t, f = .reported t

/-- Failures on the bus are reported. -/
def Held.Reporting {σ : Type} (h : Held σ) : Prop := h.bus.Only Failure.IsReported

section

variable {ω α β : Type}

/-- If `I` holds at `w`, it holds of what `x` leaves, and `x` is not trapped. -/
def Returns (I : ω → Prop) (x : EStateM Error ω α) (w : ω) : Prop :=
  I w → I (after x w) ∧ ∀ e w', x w = .error e w' → e.isTrap = false

namespace Returns

variable {I : ω → Prop} {w : ω}

/-- An action that succeeds is not trapped. -/
lemma of_ok {x : EStateM Error ω α} {a : α} {w' : ω} (hx : x w = .ok a w') (hI : I w → I w') :
    Returns I x w := by
  intro h
  rw [after_of_ok hx]
  exact ⟨hI h, fun e w'' herror => nomatch hx.symm.trans herror⟩

/-- An action that fails with another error than a trap is not trapped. -/
lemma of_error {x : EStateM Error ω α} {e : Error} {w' : ω} (hx : x w = .error e w')
    (he : I w → I w' ∧ e.isTrap = false) : Returns I x w := by
  intro h
  rw [after_of_error hx]
  refine ⟨(he h).1, fun e' w'' herror => ?_⟩
  cases hx.symm.trans herror
  exact (he h).2

/-- A result alone is not trapped. -/
lemma pure (a : α) : Returns I (pure a) w := of_ok rfl id

/-- An error alone is trapped only if it is a trap. -/
lemma throw {e : Error} (he : e.isTrap = false) : Returns I (throw e : EStateM Error ω α) w :=
  of_error rfl fun h => ⟨h, he⟩

/-- Two actions in a row are not trapped if neither of them is. -/
lemma bind {x : EStateM Error ω α} {f : α → EStateM Error ω β} (hx : Returns I x w)
    (hf : ∀ a w', Returns I (f a) w') : Returns I (x >>= f) w := by
  -- after a failure of `x` nothing of `f` is done
  cases hr : x w with
  | error e w' =>
    refine of_error (bind_of_error hr f) fun h => ⟨?_, (hx h).2 e w' hr⟩
    rw [← after_of_error hr]
    exact (hx h).1
  | ok a w' =>
    intro h
    have hkept := (hx h).1
    rw [after_of_ok hr] at hkept
    rw [after_bind_of_ok hr, bind_of_ok hr]
    exact hf a w' hkept

/-- What would follow a refusal does not matter. -/
lemma throw_bind {e : Error} {f : α → EStateM Error ω β} (he : e.isTrap = false) :
    Returns I ((MonadExcept.throw e : EStateM Error ω α) >>= f) w :=
  of_error rfl fun h => ⟨h, he⟩

/-- An action that depends on a condition is not trapped if no branch is. -/
lemma ite {c : Prop} [Decidable c] {x y : EStateM Error ω α} (hx : c → Returns I x w)
    (hy : ¬c → Returns I y w) : Returns I (if c then x else y) w := by
  by_cases hc : c
  · rw [if_pos hc]
    exact hx hc
  · rw [if_neg hc]
    exact hy hc

end Returns

end

/-! ## Steps of a transaction -/

namespace Returns

variable {σ τ α β : Type} {h : Held σ}

/-- An operation fails with what the bus reports. -/
lemma issue (p : Primitive) (h : Held σ) : Returns Held.Reporting (Action.issue p) h := by
  cases hp : h.bus.issue p with
  | mk r bus =>
    cases r with
    | ok reply =>
      have hissue : Action.issue p h = .ok reply { h with bus } := by simp only [Action.issue, hp]
      exact of_ok hissue ((Bus.issue_of_ok hp).2.2.2 _)
    | error e =>
      have hissue : Action.issue p h = .error e { h with bus } := by simp only [Action.issue, hp]
      obtain ⟨-, -, f, rfl, hfailed⟩ := Bus.issue_of_error hp
      refine of_error hissue fun hreporting => ?_
      obtain ⟨⟨t, rfl⟩, honly⟩ := hfailed Failure.IsReported ⟨_, rfl⟩ hreporting
      exact ⟨honly, rfl⟩

/-- A change of the state is not trapped. -/
lemma change (f : σ → σ) : Returns Held.Reporting (Action.change f) h := of_ok rfl id

/-- To read the state is not trapped. -/
lemma state_bind {f : σ → Action σ α} (hf : Returns Held.Reporting (f h.state) h) :
    Returns Held.Reporting (Action.state >>= f) h := hf

/-- A value that was computed without a trap, and what follows with it. -/
lemma ofExcept_bind {r : Except Error β} {f : β → Action σ α} (hr : Result.Untrapped r)
    (hf : ∀ b, r = .ok b → Returns Held.Reporting (f b) h) :
    Returns Held.Reporting (Action.ofExcept r >>= f) h := by
  cases r with
  | error e => exact throw_bind (hr e rfl)
  | ok b => exact hf b rfl

/-- An action on a part of the state is not trapped if it is not on the part alone. -/
lemma focus {h : Held τ} {get : τ → σ} {put : τ → σ → τ} {x : Action σ α}
    (hx : Returns Held.Reporting x ⟨get h.state, h.bus⟩) :
    Returns Held.Reporting (Action.focus get put x) h := by
  cases hr : x ⟨get h.state, h.bus⟩ with
  | ok a k =>
    refine of_ok (Action.focus_of_ok hr) fun hreporting => ?_
    have hkept := (hx hreporting).1
    rw [after_of_ok hr] at hkept
    exact hkept
  | error e k =>
    refine of_error (Action.focus_of_error hr) fun hreporting => ⟨?_, (hx hreporting).2 e k hr⟩
    have hkept := (hx hreporting).1
    rw [after_of_error hr] at hkept
    exact hkept

/-- A write is not trapped. -/
lemma write (address : Address) (value mask : Word) (h : Held σ) :
    Returns Held.Reporting (Wire.write address value mask) h :=
  .bind (issue _ h) fun _ => issue _

/-- A reading of a wire is not trapped. -/
lemma read (address : Address) (h : Held σ) : Returns Held.Reporting (Wire.read address) h :=
  .bind (issue _ h) fun _ => issue _

/-- A readout is not trapped. -/
lemma readout (select : Readout) (h : Held σ) : Returns Held.Reporting (Wire.readout select) h :=
  .bind (write _ _ _ h) fun _ => read _

end Returns

/-! ## The sequencer -/

namespace Controller

/-- A number of repetitions is accepted or refused, without a trap. -/
lemma untrapped_checkRepetitions (count : Nat) : Result.Untrapped (checkRepetitions count) :=
  Result.untrapped_ite (Result.untrapped_ok _) (Result.untrapped_error rfl)

/-- A state is fit for a start or not, without a trap. -/
lemma untrapped_checkStartable (state : RunState) : Result.Untrapped (checkStartable state) := by
  cases state with
  | programmed => exact Result.untrapped_ok _
  | _ => exact Result.untrapped_error rfl

/-- A run has something to stop or not, without a trap. -/
lemma untrapped_stopBits (c : Controller) : Result.Untrapped c.stopBits := by
  obtain ⟨state, finished⟩ := c
  cases state with
  | idle => exact Result.untrapped_error rfl
  | programmed =>
    cases finished with
    | none => exact Result.untrapped_error rfl
    | some stop => exact Result.untrapped_ok stop
  | _ => exact Result.untrapped_ok _

variable (h : Held Controller)

/-- To forget a finished run is not trapped. -/
lemma returns_clearFinished : Returns Held.Reporting clearFinished h := by
  refine .state_bind ?_
  cases h.state.finished with
  | none => exact .pure ()
  | some stop => exact .bind (.write _ _ _ h) fun _ _ => .change _

/-- To prepare a start is not trapped. -/
lemma returns_prepareStart : Returns Held.Reporting prepareStart h :=
  .state_bind (.ofExcept_bind (untrapped_checkStartable _) fun _ _ => returns_clearFinished h)

/-- An upload is not trapped. -/
lemma returns_program (p : Program) : Returns Held.Reporting (program p) h := by
  refine .state_bind (.ite (fun _ => .throw_bind rfl) fun _ => ?_)
  refine .bind (.issue _ h) fun _ h => .bind (.issue _ h) fun _ h => ?_
  exact .bind (.issue _ h) fun _ _ => .change _

/-- The start of a single run is not trapped. -/
lemma returns_startSingle : Returns Held.Reporting startSingle h := by
  refine .bind (returns_prepareStart h) fun _ h => .bind (.issue _ h) fun _ h => ?_
  exact .bind (.write _ _ _ h) fun _ _ => .change _

/-- The start of a looped run is not trapped. -/
lemma returns_startLooped (repetitions : Word) (running : RunState) :
    Returns Held.Reporting (startLooped repetitions running) h := by
  refine .bind (returns_prepareStart h) fun _ h => .bind (.write _ _ _ h) fun _ h => ?_
  refine .bind (.issue _ h) fun _ h => .bind (.write _ _ _ h) fun _ _ => .change _

/-- The start of a counted run is not trapped. -/
lemma returns_startCounted (count : Nat) : Returns Held.Reporting (startCounted count) h :=
  .ofExcept_bind (untrapped_checkRepetitions count) fun _ _ => returns_startLooped h _ _

/-- To complete a run is not trapped. -/
lemma returns_complete : Returns Held.Reporting complete h := by
  refine .state_bind (.ite (fun _ => .throw_bind rfl) fun _ => ?_)
  exact .bind (.write _ _ _ h) fun _ _ => .change _

/-- A stop is not trapped. -/
lemma returns_stop : Returns Held.Reporting stop h := by
  refine .state_bind (.ofExcept_bind (untrapped_stopBits _) fun bits _ => ?_)
  refine .bind (.issue _ h) fun _ h => .bind (.write _ _ _ h) fun _ h => ?_
  exact .bind (.issue _ h) fun _ _ => .change _

/-- A poll is not trapped. -/
lemma returns_pollDone : Returns Held.Reporting pollDone h := by
  refine .bind (.readout _ h) fun _ h => .ite (fun _ => ?_) fun _ => .pure _
  exact .bind (.change _) fun _ _ => .pure _

/-- A question for the repetitions is not trapped. -/
lemma returns_repetitions : Returns Held.Reporting repetitions h := by
  refine .state_bind ?_
  cases h.state.state with
  | runningInfinite => exact .readout _ h
  | runningCounted n => exact .readout _ h
  | _ => exact .throw rfl

end Controller

/-! ## Counting -/

namespace Counting

/-- A collection time is in range or not, without a trap. -/
lemma untrapped_checkTime (c : Counting) (seconds : Float) :
    Result.Untrapped (c.checkTime seconds) :=
  Result.untrapped_ite (Result.untrapped_ok ()) (Result.untrapped_error rfl)

/-- A collection time is kept or refused, without a trap. -/
lemma untrapped_store (c : Counting) (seconds : Float) (mode : CollectionMode) :
    Result.Untrapped (c.store seconds mode) :=
  Result.untrapped_bind (untrapped_checkTime c seconds) fun _ _ => Result.untrapped_ok _

variable (h : Held Counting)

/-- To tell the board of the counting setup is not trapped. -/
lemma returns_apply : Returns Held.Reporting Counting.apply h := by
  refine .state_bind (.bind (.issue _ h) fun _ h => ?_)
  exact .bind (.issue _ h) fun _ => .issue _

/-- A change of the mode is not trapped. -/
lemma returns_setMode (mode : CollectionMode) : Returns Held.Reporting (setMode mode) h :=
  .bind (.change _) fun _ h => .bind (returns_apply h) fun _ => .issue _

/-- A change of the collection time in normal mode is not trapped. -/
lemma returns_setNormalTime (seconds : Float) :
    Returns Held.Reporting (setNormalTime seconds) h := by
  refine .state_bind (.ofExcept_bind (untrapped_store _ seconds _) fun _ _ => ?_)
  refine .bind (.change _) fun _ h => .bind (.issue _ h) fun _ => .write _ _ _

/-- A reading of the counts is not trapped. -/
lemma returns_drain (readTime : Float) : Returns Held.Reporting (drain readTime) h := by
  refine .bind (.bind (.readout _ h) fun _ h => .ite (fun _ => .pure _) fun _ => ?_)
    fun _ _ => .state_bind (.pure _)
  exact .bind (.issue _ h) fun _ _ => .pure _

end Counting

/-! ## The host -/

namespace Host

variable {h : Held Host}

/-- The words of lines that the board has are made without a trap. -/
lemma returns_initialise (hlines : ∀ index s, h.state.lines index = some s →
    index.toNat < lineLimit) : Returns Held.Reporting initialise h := by
  obtain ⟨r, hr⟩ := LineTable.exists_register hlines
  have huntrapped : Result.Untrapped h.state.lines.register := by
    rw [hr]
    exact Result.untrapped_ok r
  refine .state_bind (.ofExcept_bind huntrapped fun _ _ => ?_)
  refine .bind (.issue _ h) fun _ h => .bind (.issue _ h) fun _ h => ?_
  refine .bind (.issue _ h) fun _ h => .bind (.focus (Counting.returns_apply _)) fun _ h => ?_
  refine .bind (.focus (.issue _ _)) fun _ h => .bind (.issue _ h) fun _ _ => .change _

/-- The bits of a line of the board are written without a trap. -/
lemma returns_switchLine {index : UInt8} (hindex : index.toNat < lineLimit)
    (update : LineState → LineState) : Returns Held.Reporting (switchLine index update) h := by
  refine .state_bind (.bind ?_ fun _ _ => .bind (.change _) fun _ _ => .pure _)
  refine .ite (fun hbeyond => absurd hindex (Nat.not_lt_of_le hbeyond)) fun _ => ?_
  exact .bind (.issue _ h) fun _ h => .bind (.issue _ h) fun _ => .issue _

/-- A reading of the time tags is not trapped. -/
lemma returns_drainTimetags : Returns Held.Reporting drainTimetags h := by
  refine .bind (.read _ h) fun _ h => .ite (fun _ => .pure _) fun _ => ?_
  exact .bind (.issue _ h) fun _ _ => .pure _

end Host

/-! ## Links -/

namespace Link

variable {σ α : Type} {l : Link σ}

/-- Failures on the bus of a link are reported. -/
def Reporting (l : Link σ) : Prop := l.held.Reporting

/-- A transaction is trapped only if its work is. -/
lemma returns_transaction {work : Action σ α} (hwork : Returns Held.Reporting work l.held) :
    Returns Reporting (transaction work) l := by
  cases hr : transaction work l with
  | ok a l' =>
    obtain ⟨-, held, hok, rfl⟩ := transaction_of_ok hr
    refine .of_ok hr fun hl => ?_
    rw [Reporting, ← after_of_ok hok]
    exact (hwork hl).1
  | error e l' =>
    rcases transaction_cases_of_error hr with ⟨-, rfl, rfl⟩ | ⟨held, herror, rfl⟩
    · exact .of_error hr fun hl => ⟨hl, rfl⟩
    · refine .of_error hr fun hl => ⟨?_, (hwork hl).2 e held herror⟩
      rw [Reporting, ← after_of_error herror]
      exact (hwork hl).1

/-- An attempt to connect is trapped only if the initialisation is. -/
lemma returns_connect {initialise : Action σ Unit}
    (hinitialise : Returns Held.Reporting initialise l.held) :
    Returns Reporting (connect initialise) l := by
  cases hr : connect initialise l with
  | ok u l' =>
    refine .of_ok hr fun hl => ?_
    rcases connect_cases_of_ok hr with rfl | hok
    · exact hl
    · rw [Reporting, ← after_of_ok hok]
      exact (hinitialise hl).1
  | error e l' =>
    rcases connect_cases_of_error hr with ⟨rfl, hheld⟩ | herror
    · refine .of_error hr fun hl => ⟨?_, rfl⟩
      rw [Reporting, hheld]
      exact hl
    · refine .of_error hr fun hl => ⟨?_, (hinitialise hl).2 e l'.held herror⟩
      rw [Reporting, ← after_of_error herror]
      exact (hinitialise hl).1

end Link

/-! ## Instruments -/

namespace Instrument

variable {α β : Type} {i : Instrument}

/-- Failures on the bus of an instrument are reported. -/
def Reporting (i : Instrument) : Prop := i.link.Reporting

/-- To read the state of an instrument is not trapped. -/
lemma returns_get_bind {f : Instrument → Operation β} (hf : Returns Reporting (f i) i) :
    Returns Reporting (get >>= f) i := hf

/-- A value that was computed without a trap, and what follows with it on an instrument. -/
lemma returns_ofExcept_bind {r : Except Error α} {f : α → Operation β} (hr : Result.Untrapped r)
    (hf : ∀ a, r = .ok a → Returns Reporting (f a) i) :
    Returns Reporting (ofExcept r >>= f) i := by
  cases r with
  | error e => exact .throw_bind (hr e rfl)
  | ok a => exact hf a rfl

/-- An operation of the link is not trapped on the instrument. -/
lemma returns_onLink {x : Link.Operation Host α} (hx : Returns Link.Reporting x i.link) :
    Returns Reporting (onLink x) i := by
  intro hi
  obtain ⟨hkept, huntrapped⟩ := hx hi
  rw [after_onLink]
  refine ⟨hkept, fun e i' herror => ?_⟩
  obtain ⟨link, hlink, -⟩ := error_of_onLink herror
  exact huntrapped e link hlink

/-- A transaction is not trapped if its work is not. -/
lemma returns_transaction {work : Action Host α}
    (hwork : ∀ h : Held Host, Returns Held.Reporting work h) :
    Returns Reporting (transaction work) i :=
  returns_onLink (Link.returns_transaction (hwork i.link.held))

end Instrument

end PulseSequencer

import PulseSequencer.Proofs.Capture.Delivery

/-!
# How many bytes a capture reads

A capture has one byte per clock period of its window, rounded down to whole blocks, and is refused
if this number is not within the limits of the board. The number is settled when a request is
accepted, by the window that was asked for or by the one that was stored last. Whatever happens
afterwards, the worker of the request reads as many bytes.

* `CaptureConfiguration.size`: the bytes of a window before the limits are looked at.
* `CaptureConfiguration.Sizes`: how windows are sized.
* `Station.Event.stored`, `Station.run_window`: the window that is stored after events.
* `Station.Reads`: what a step of a worker brings to the board.
* `Station.Captures`: the capture of a request is of a number of bytes.
* `Station.captures_sized`: all of this holds for every run; `Station.shortened_sized` is a case of
  it.
-/

namespace PulseSequencer

namespace CaptureConfiguration

variable {c : CaptureConfiguration} {nanos n : Nat} {e : Error}

/-- The bytes of a window, one per clock period in whole blocks, whatever the limits. -/
def size (c : CaptureConfiguration) (nanos : Nat) : Nat :=
  block * (nanos / (block * c.clockPeriod.toNat))

/-- A number of bytes is within the limits of the board. -/
def Within (c : CaptureConfiguration) (n : Nat) : Prop :=
  c.minBuffer.toNat ≤ n ∧ n ≤ c.maxBuffer.toNat

instance (c : CaptureConfiguration) (n : Nat) : Decidable (c.Within n) :=
  inferInstanceAs (Decidable (_ ∧ _))

/-- How windows are sized: one is accepted with its size if that is within the limits and refused
otherwise. The size is the greatest number of whole blocks that fit into the window, a longer window
has no less of them, and a window between two that are accepted is accepted. -/
structure Sizes (c : CaptureConfiguration) : Prop where
  accepted : ∀ nanos n, c.bufferLength nanos = .ok n ↔ n = c.size nanos ∧ c.Within n
  refused : ∀ nanos e, c.bufferLength nanos = .error e ↔
    ¬c.Within (c.size nanos) ∧ e = .outOfRange
      (.captureSize nanos (c.size nanos) c.minBuffer.toNat c.maxBuffer.toNat)
  greatest : ∀ nanos n, c.bufferLength nanos = .ok n →
    IsGreatest {m | block ∣ m ∧ m * c.clockPeriod.toNat ≤ nanos} n
  monotone : ∀ nanos nanos' n n', nanos ≤ nanos' → c.bufferLength nanos = .ok n →
    c.bufferLength nanos' = .ok n' → n ≤ n'
  interval : {nanos | ∃ n, c.bufferLength nanos = .ok n}.OrdConnected

/-- A longer window has no smaller size. -/
lemma size_mono (c : CaptureConfiguration) : Monotone c.size := fun _ _ h =>
  Nat.mul_le_mul_left _ (Nat.div_le_div_right h)

section
variable (hclock : c.clockPeriod ≠ 0)
include hclock

/-- A clock period that is not zero is positive. -/
lemma clockPeriod_pos : 0 < c.clockPeriod.toNat :=
  Nat.pos_of_ne_zero fun h => hclock (UInt64.toNat_inj.mp h)

/-- Whole blocks of bytes fit into a window exactly if they are no more than its size. -/
lemma le_size_iff {k : Nat} :
    block * k ≤ c.size nanos ↔ block * k * c.clockPeriod.toNat ≤ nanos := by
  have hpos : 0 < block * c.clockPeriod.toNat := Nat.mul_pos (by decide) (clockPeriod_pos hclock)
  rw [size, Nat.mul_le_mul_left_iff (by decide), Nat.le_div_iff_mul_le hpos, ← Nat.mul_assoc,
    Nat.mul_comm k block]

/-- The size is the greatest number of whole blocks that fit. -/
lemma size_isGreatest (nanos : Nat) :
    IsGreatest {m | block ∣ m ∧ m * c.clockPeriod.toNat ≤ nanos} (c.size nanos) := by
  refine ⟨⟨Nat.dvd_mul_right _ _, (le_size_iff hclock).mp (Nat.le_refl _)⟩, ?_⟩
  rintro m ⟨⟨k, rfl⟩, hfits⟩
  exact (le_size_iff hclock).mpr hfits

/-- A window has its size if that is within the limits, and is refused otherwise. -/
lemma bufferLength_eq (nanos : Nat) : c.bufferLength nanos =
    if c.Within (c.size nanos) then .ok (c.size nanos)
    else .error (.outOfRange
      (.captureSize nanos (c.size nanos) c.minBuffer.toNat c.maxBuffer.toNat)) := by
  have hsize : nanos / c.clockPeriod.toNat / block * block = c.size nanos := by
    rw [size, Nat.div_div_eq_div_mul, Nat.mul_comm c.clockPeriod.toNat, Nat.mul_comm]
  rw [bufferLength, if_neg hclock, hsize]
  by_cases hwithin : c.Within (c.size nanos)
  · rw [if_pos hwithin, if_neg (by unfold Within at hwithin; omega)]
  · rw [if_neg hwithin, if_pos (by unfold Within at hwithin; omega)]

/-- A window is accepted with its size exactly if that is within the limits. -/
lemma bufferLength_eq_ok : c.bufferLength nanos = .ok n ↔ n = c.size nanos ∧ c.Within n := by
  rw [bufferLength_eq hclock]
  split
  case isTrue hwithin =>
    constructor
    · intro h
      cases h
      exact ⟨rfl, hwithin⟩
    · rintro ⟨rfl, -⟩
      rfl
  case isFalse hbeyond =>
    refine ⟨nofun, ?_⟩
    rintro ⟨rfl, hwithin⟩
    exact absurd hwithin hbeyond

/-- A window is refused exactly if its size is not within the limits, and the error tells all of
them. -/
lemma bufferLength_eq_error : c.bufferLength nanos = .error e ↔
    ¬c.Within (c.size nanos) ∧ e = .outOfRange
      (.captureSize nanos (c.size nanos) c.minBuffer.toNat c.maxBuffer.toNat) := by
  rw [bufferLength_eq hclock]
  split
  case isTrue hwithin => exact ⟨nofun, fun h => absurd hwithin h.1⟩
  case isFalse hbeyond => simp [hbeyond, eq_comm]

/-- A configuration with a clock sizes windows as it should. -/
lemma sizes : c.Sizes := by
  constructor
  case accepted => exact fun _ _ => bufferLength_eq_ok hclock
  case refused => exact fun _ _ => bufferLength_eq_error hclock
  case greatest =>
    intro nanos n h
    rw [((bufferLength_eq_ok hclock).mp h).1]
    exact size_isGreatest hclock nanos
  case monotone =>
    intro nanos nanos' n n' hle h h'
    rw [((bufferLength_eq_ok hclock).mp h).1, ((bufferLength_eq_ok hclock).mp h').1]
    exact c.size_mono hle
  case interval =>
    constructor
    rintro nanos ⟨n, h⟩ nanos'' ⟨n'', h''⟩ nanos' ⟨hle, hle'⟩
    obtain ⟨rfl, hlow, -⟩ := (bufferLength_eq_ok hclock).mp h
    obtain ⟨rfl, -, hhigh⟩ := (bufferLength_eq_ok hclock).mp h''
    exact ⟨_, (bufferLength_eq_ok hclock).mpr
      ⟨rfl, hlow.trans (c.size_mono hle), (c.size_mono hle').trans hhigh⟩⟩

end

end CaptureConfiguration

namespace Station

variable {s t : Station} {place length : Nat}

/-! ## The stored window -/

/-- The window that an event stores: that of an accepted change. -/
def Event.stored (config : CaptureConfiguration) : Event → Option Nat
  | setWindow nanos =>
    match config.bufferLength nanos with
    | .ok _ => some nanos
    | .error _ => none
  | _ => none

/-- A window is stored exactly if a capture of it could be made. -/
lemma setWindow_eq_ok {nanos : Nat} : Station.setWindow nanos s = .ok () t ↔
    (∃ length, s.config.bufferLength nanos = .ok length) ∧ t = { s with window := nanos } := by
  unfold Station.setWindow bytesOf
  cases s.config.bufferLength nanos <;> simp [eq_comm]

/-- A window is refused as a capture of it would be, and nothing changes. -/
lemma setWindow_eq_error {nanos : Nat} {e : Error} : Station.setWindow nanos s = .error e t ↔
    s.config.bufferLength nanos = .error e ∧ t = s := by
  unfold Station.setWindow bytesOf
  cases s.config.bufferLength nanos <;> simp [eq_comm]

/-- An event keeps the configuration, and the window unless it stores another one. -/
lemma apply_window (s : Station) (e : Event) :
    (e.apply s).config = s.config ∧
      (e.apply s).window = (e.stored s.config).getD s.window := by
  cases e with
  | connect =>
    show (after (onLink (Link.connect initialise)) s).config = _ ∧
      (after (onLink (Link.connect initialise)) s).window = _
    unfold after onLink
    cases Link.connect initialise s.link <;> exact ⟨rfl, rfl⟩
  | disconnect | bus => exact ⟨rfl, rfl⟩
  | setWindow nanos =>
    show (after (Station.setWindow nanos) s).config = _ ∧
      (after (Station.setWindow nanos) s).window = _
    cases hbytes : s.config.bufferLength nanos with
    | ok length =>
      rw [after_of_ok (setWindow_eq_ok.mpr ⟨⟨length, hbytes⟩, rfl⟩)]
      exact ⟨rfl, by simp [Event.stored, hbytes]⟩
    | error e =>
      rw [after_of_error (setWindow_eq_error.mpr ⟨hbytes, rfl⟩)]
      exact ⟨rfl, by simp [Event.stored, hbytes]⟩
  | perform nanos =>
    show (after (Station.perform nanos) s).config = _ ∧
      (after (Station.perform nanos) s).window = _
    cases hr : Station.perform nanos s with
    | error e s' =>
      rw [after_of_error hr, eq_of_perform_error hr]
      exact ⟨rfl, rfl⟩
    | ok u s' =>
      obtain ⟨-, -, length, -, rfl⟩ := perform_eq_ok.mp hr
      rw [after_of_ok hr]
      exact ⟨rfl, rfl⟩
  | collect =>
    show (s.collect?.elim s Prod.snd).config = _ ∧ (s.collect?.elim s Prod.snd).window = _
    cases hresult : s.collect? with
    | none => exact ⟨rfl, rfl⟩
    | some answer =>
      rw [Option.elim_some, eq_of_collect hresult]
      exact ⟨rfl, rfl⟩
  | advance place =>
    have hmoves := s.advance_moves place
    show (s.advance place).config = _ ∧ (s.advance place).window = _
    generalize s.advance place = s' at hmoves
    cases hmoves <;> exact ⟨rfl, rfl⟩

/-- After events the window is the one that was stored last, or the one from before. -/
lemma run_window (s : Station) (events : List Event) :
    (s.run events).config = s.config ∧ (s.run events).window =
      (events.filterMap (Event.stored s.config)).getLast?.getD s.window := by
  induction events using List.reverseRecOn with
  | nil => exact ⟨rfl, rfl⟩
  | append_singleton events e ih =>
    obtain ⟨sameConfig, hwindow⟩ := ih
    have hrun : s.run (events ++ [e]) = e.apply (s.run events) := run_append s events [e]
    obtain ⟨sameConfig', hwindow'⟩ := (s.run events).apply_window e
    rw [sameConfig] at sameConfig' hwindow'
    rw [hrun, hwindow', hwindow, List.filterMap_append]
    refine ⟨sameConfig', ?_⟩
    cases hstored : e.stored s.config <;> simp [hstored]

/-! ## What is read -/

/-- What the next step of the worker at a place does on the board if its request is for a number of
bytes: a worker that waits reads as many bytes, or fails before anything is read, and any other
worker leaves the board alone. -/
inductive Reads (s : Station) (place length : Nat) : Prop where
  | whole {bytes : List Byte} (waiting : s.workers[place]? = some ⟨length, .waiting⟩)
      (log : (s.advance place).link.bus.board.log = s.link.bus.board.log ++ capturing length)
      (worker : (s.advance place).workers[place]? = some ⟨length, .read (.ok bytes)⟩)
      (size : bytes.length = length) : Reads s place length
  | broken {ps : List Primitive} {e : Error}
      (waiting : s.workers[place]? = some ⟨length, .waiting⟩)
      (front : ps <+: [.trigger Endpoint.trigger Pulse.resetCapture])
      (log : (s.advance place).link.bus.board.log = s.link.bus.board.log ++ ps)
      (worker : (s.advance place).workers[place]? = some ⟨length, .read (.error e)⟩ ∨
        (s.advance place).workers[place]? = some ⟨length, .dead⟩) : Reads s place length
  | over {p : Progress} (worker : s.workers[place]? = some ⟨length, p⟩) (done : p ≠ .waiting)
      (log : (s.advance place).link.bus.board.log = s.link.bus.board.log) : Reads s place length

/-- A reading triggers and reads the whole capture, or stops before the pipe is read. -/
lemma transaction_read (l : Link Unit) (length : Nat) :
    (∃ bytes l', Link.transaction (Station.read length) l = .ok bytes l' ∧ bytes.length = length ∧
      l'.bus.board.log = l.bus.board.log ++ capturing length) ∨
    ∃ e l' ps, Link.transaction (Station.read length) l = .error e l' ∧
      ps <+: [.trigger Endpoint.trigger Pulse.resetCapture] ∧
      l'.bus.board.log = l.bus.board.log ++ ps := by
  cases hread : Link.transaction (Station.read length) l with
  | ok bytes l' =>
    obtain ⟨-, held, hheld, rfl⟩ := Link.transaction_of_ok hread
    obtain ⟨_, rfl, hcarries⟩ := (brings_read length).of_ok hheld
    refine .inl ⟨bytes, _, rfl, ?_, ?_⟩
    · rw [eq_pipeBytes_of_read hheld]
      exact Board.length_pipeBytes _ _ _
    · show held.bus.board.log = l.bus.board.log ++ _
      rw [hcarries.board, Board.log_replay]
      rfl
  | error e l' =>
    refine .inr ⟨e, l', ?_⟩
    -- detached, nothing reaches the board; otherwise the trigger does at most
    rcases Link.transaction_cases_of_error hread with ⟨-, -, rfl⟩ | ⟨held, hheld, rfl⟩
    · exact ⟨[], rfl, List.nil_prefix, (List.append_nil _).symm⟩
    · obtain ⟨ps, hfront, _, p, hcarries, hfailed⟩ := (brings_read length).of_error hheld
      refine ⟨ps, rfl, hfront, ?_⟩
      show held.bus.board.log = l.bus.board.log ++ ps
      rw [(Bus.issue_of_error hfailed).1, hcarries.board, Board.log_replay]
      rfl

/-- On an attached board in its slot a reading without a fault in wait succeeds. -/
lemma transaction_read_of_fault_none {l : Link Unit} (hattached : l.attached = true)
    (hpresent : l.bus.board.present = true) (hfault : l.bus.fault = none) (length : Nat) :
    ∃ bytes l', Link.transaction (Station.read length) l = .ok bytes l' := by
  obtain ⟨bytes, held, -, hread, -⟩ :=
    (brings_read length).ok_of_fault_none hfault hpresent
  have hheld : Station.read length l.held = .ok bytes held := hread
  exact ⟨bytes, { l with held }, by rw [Link.transaction, if_pos hattached, hheld]⟩

/-- Only a worker that waits works on the link. -/
lemma link_advance {w : Worker} (hw : s.workers[place]? = some w) (hdone : w.progress ≠ .waiting) :
    (s.advance place).link = s.link := by
  have hmoves := s.advance_moves place
  generalize s.advance place = s' at hmoves
  cases hmoves with
  | rest | cleared | sent => rfl
  | read worker waiting | died worker waiting =>
    cases hw.symm.trans worker
    exact absurd waiting hdone

/-- Every worker reads what it was asked for, or leaves the board alone. -/
lemma reads_of_worker {p : Progress} (hw : s.workers[place]? = some ⟨length, p⟩) :
    s.Reads place length := by
  by_cases hp : p = .waiting
  · subst hp
    have marked (link : Link Unit) (p : Progress) :
        ({ s with link }.mark place ⟨length, .waiting⟩ p).workers[place]? = some ⟨length, p⟩ := by
      rw [getElem?_mark (s := { s with link }) hw, if_pos rfl]
    rcases transaction_read s.link length with
      ⟨bytes, link, hread, hsize, hlog⟩ | ⟨e, link, ps, hread, hfront, hlog⟩
    · have hadvance := advance_of_read hw hread
      exact .whole hw (hadvance ▸ hlog) (hadvance ▸ marked _ _) hsize
    · have hadvance := advance_of_read_error hw hread
      refine .broken (e := e) hw hfront (hadvance ▸ hlog) ?_
      rw [hadvance]
      by_cases htrap : e.isTrap = true
      · rw [if_pos htrap]
        exact .inr (marked _ _)
      · rw [if_neg htrap]
        exact .inl (marked _ _)
  · exact .over hw hp (by rw [link_advance hw hp])

/-- The capture of the worker at a place is of a number of bytes, whatever happens: its steps read
as many or fail to, they do not fail on an attached board in its slot without a fault in wait, and
the capture that is answered is as long. -/
structure Captures (t : Station) (place length : Nat) : Prop where
  reads : ∀ later, (t.run later).Reads place length
  succeeds : ∀ later, (t.run later).workers[place]? = some ⟨length, .waiting⟩ →
    (t.run later).link.attached = true → (t.run later).link.bus.board.present = true →
    (t.run later).link.bus.fault = none → ∃ bytes,
      ((t.run later).advance place).workers[place]? = some ⟨length, .read (.ok bytes)⟩
  answers : ∀ later w capture, (t.run later).workers[place]? = some w →
    w.progress.answer = some (.ok capture) → capture.length = length

/-- A worker that waits makes its capture whatever happens. -/
lemma captures_of_waiting (orderly : ∀ later, (t.run later).Orderly)
    (hw : t.workers[place]? = some ⟨length, .waiting⟩) (hattached : t.link.attached = true) :
    t.Captures place length := by
  have stands := stands_run orderly hw hattached
  constructor
  case reads =>
    intro later
    cases stands later with
    | waiting worker => exact reads_of_worker worker
    | answered worker => exact reads_of_worker worker
  case succeeds =>
    intro later worker hattached hpresent hfault
    obtain ⟨bytes, link, hread⟩ := transaction_read_of_fault_none hattached hpresent hfault length
    refine ⟨bytes, ?_⟩
    rw [advance_of_read worker hread, getElem?_mark (s := { t.run later with link }) worker,
      if_pos rfl]
  case answers =>
    intro later w capture hw hanswer
    cases stands later with
    | waiting worker =>
      cases hw.symm.trans worker
      cases hanswer
    | answered worker answer ran =>
      cases hw.symm.trans worker
      cases answer.symm.trans hanswer
      obtain ⟨_, _, -, -, yields, -⟩ := ran
      cases yields with
      | capture _ _ size => exact size

/-! ## Every run -/

/-- How a station sizes its captures after events: the window is the one that was stored last, a
change of the window is accepted or refused as a capture of it would be and leaves all else as it
was, and an accepted request makes a capture of the size of its window. -/
structure Sized (config : CaptureConfiguration) (events : List Event) (s : Station) : Prop where
  window : s.window =
    (events.filterMap (Event.stored config)).getLast?.getD config.defaultWindow.toNat
  stores : ∀ nanos t, Station.setWindow nanos s = .ok () t ↔
    (∃ length, config.bufferLength nanos = .ok length) ∧ t = { s with window := nanos }
  refuses : ∀ nanos e t, Station.setWindow nanos s = .error e t ↔
    config.bufferLength nanos = .error e ∧ t = s
  captures : ∀ nanos t, Station.perform nanos s = .ok () t → ∃ length,
    config.bufferLength (nanos.getD s.window) = .ok length ∧ t.Captures s.workers.length length

variable {config : CaptureConfiguration} {id : String} {bus : Bus}

/-- A station opens with its configuration and the default window. -/
lemma config_of_opened (h : opened config id bus = .ok s) :
    s.config = config ∧ s.window = config.defaultWindow.toNat := by
  obtain ⟨link, -, h⟩ := Result.bind_eq_ok.mp h
  cases h
  exact ⟨rfl, rfl⟩

/-- A station sizes its captures by its configuration after any events. -/
lemma sized_of_opened (h : opened config id bus = .ok s) (events : List Event) :
    (s.run events).Sized config events := by
  obtain ⟨hconfig, hdefault⟩ := config_of_opened h
  obtain ⟨sameConfig, hwindow⟩ := s.run_window events
  rw [hconfig] at sameConfig
  constructor
  case window => rw [hwindow, hconfig, hdefault]
  case stores =>
    intro nanos t
    rw [setWindow_eq_ok, sameConfig]
  case refuses =>
    intro nanos e t
    rw [setWindow_eq_error, sameConfig]
  case captures =>
    intro nanos t hperform
    obtain ⟨hattached, -, length, hlength, rfl⟩ := perform_eq_ok.mp hperform
    rw [bytesOf, sameConfig] at hlength
    refine ⟨length, hlength, captures_of_waiting (fun later => ?_) ?_ hattached⟩
    · have hrun : s.run (events ++ .perform nanos :: later) =
          ((s.run events).requested length).run later := by
        rw [run_append]
        show (Event.apply (s.run events) (.perform nanos)).run later = _
        rw [Event.apply, after_of_ok hperform]
      rw [← hrun]
      exact run_orderly h _
    · exact List.getElem?_concat_length

/-- With a clock, windows are sized in whole blocks, and after every run the captures that are made
are of the size of their window. -/
theorem captures_sized (hclock : config.clockPeriod ≠ 0) (h : opened config id bus = .ok s)
    (events : List Event) : config.Sizes ∧ (s.run events).Sized config events :=
  ⟨CaptureConfiguration.sizes hclock, sized_of_opened h events⟩

/-- The window is shortened, a window below one block is refused, and a capture is asked for. -/
def shortened : List Event := [.setWindow 100000, .setWindow 40000]

/-- The capture reads two blocks. -/
theorem shortened_sized :
    opened .default "TimeResolvedFPGA" (.new .new) = .ok standard ∧
      CaptureConfiguration.default.Sizes ∧ (standard.run shortened).Sized .default shortened ∧
      (standard.run shortened).window = 100000 ∧
      ∃ t, Station.perform none (standard.run shortened) = .ok () t ∧ t.Captures 0 2048 := by
  obtain ⟨sizes, sized⟩ := captures_sized (by decide) opened_standard shortened
  have hsize : CaptureConfiguration.default.bufferLength 100000 = .ok 2048 :=
    (sizes.accepted _ _).mpr (by decide)
  obtain ⟨length, hlength, captures⟩ := sized.captures none _ rfl
  cases hlength.symm.trans hsize
  exact ⟨opened_standard, sizes, sized, rfl, _, rfl, captures⟩

end Station

end PulseSequencer

import PulseSequencer.Capture.Station
import PulseSequencer.Proofs.Link
import PulseSequencer.Proofs.Result

/-!
# Runs of a capture station

Callers ask for captures and for results while workers take their steps. The flag keeps requests
away from the moment at which one is accepted until its worker clears the flag, so that at most one
worker, that of the latest request, has not cleared it. A worker that died never will.

* `Station.Event`, `Station.run`: what can happen to a station, and runs.
* `Station.Moves`, `Station.Effect`: what a step of a worker does, and any event.
* `Station.capturing`, `Station.brings_read`: the operations of a capture.
* `Station.Holder`: a worker that has not cleared the flag.
* `Station.Orderly`: the flag is set exactly while the worker of the latest request holds it;
  `Station.run_orderly`.
* `Station.Alive`: no worker died, and no fault that kills one lies in wait; `Station.run_alive`.
-/

namespace PulseSequencer

/-- Whether a worker with this progress has not cleared the flag. -/
def Progress.Holds : Progress → Prop
  | waiting | read _ | dead => True
  | cleared _ | sent _ => False

namespace Station

/-- What can happen to a station. -/
inductive Event where
  | connect
  | disconnect
  | setWindow (nanos : Nat)
  | perform (nanos : Option Nat)
  | collect
  | advance (place : Nat)
  | bus (e : BusEvent)

/-- The station after an event. A caller who asks for a result that is not there yet waits, and goes
on waiting. -/
def Event.apply (s : Station) : Event → Station
  | connect => after Station.connect s
  | disconnect => s.disconnect
  | setWindow nanos => after (Station.setWindow nanos) s
  | perform nanos => after (Station.perform nanos) s
  | collect => s.collect?.elim s Prod.snd
  | advance place => s.advance place
  | bus e => { s with link := s.link.onBus e.apply }

/-- The station after events in order. -/
def run (s : Station) (events : List Event) : Station := events.foldl Event.apply s

variable {s : Station} {place : Nat}

/-- A run in two parts is one part after the other. -/
lemma run_append (s : Station) (events more : List Event) :
    s.run (events ++ more) = (s.run events).run more := List.foldl_append

/-- What every event keeps, a run keeps. -/
lemma run_invariant {I : Station → Prop} (keep : ∀ {s}, I s → ∀ e : Event, I (e.apply s))
    (h : I s) (events : List Event) : I (s.run events) := by
  induction events generalizing s with
  | nil => exact h
  | cons e rest ih => exact ih (keep h e)

/-! ## Requests -/

/-- The station after an accepted request for a number of bytes. -/
def requested (s : Station) (length : Nat) : Station :=
  { s with
    busy := true
    pending := some s.workers.length
    workers := s.workers ++ [⟨length, .waiting⟩] }

/-- A request is accepted exactly on an attached board, for a valid window, while the flag is
clear. -/
lemma perform_eq_ok {nanos : Option Nat} {u : Unit} {s' : Station} :
    Station.perform nanos s = .ok u s' ↔
      s.link.attached = true ∧ s.busy = false ∧
        ∃ length, s.bytesOf (nanos.getD s.window) = .ok length ∧ s.requested length = s' := by
  unfold Station.perform
  cases hattached : s.link.attached with
  | false => simp
  | true =>
    cases hbytes : s.bytesOf (nanos.getD s.window) with
    | error e => simp
    | ok length => cases hbusy : s.busy <;> simp [requested]

/-- A refused request leaves the station as it was. -/
lemma eq_of_perform_error {nanos : Option Nat} {e : Error} {s' : Station}
    (h : Station.perform nanos s = .error e s') : s' = s := by
  unfold Station.perform at h
  split at h
  · cases h
    rfl
  · split at h
    · cases h
      rfl
    · split at h
      · cases h
        rfl
      · cases h

/-- A result that is given out is not pending any more; nothing else changes. -/
lemma eq_of_collect {result : Except Error Capture} {s' : Station}
    (h : s.collect? = some (result, s')) : s' = { s with pending := none } := by
  unfold collect? at h
  split at h
  case h_1 hpending =>
    cases h
    rw [← hpending]
  case h_2 place hpending =>
    split at h <;> cases h <;> rfl

/-! ## Steps of workers -/

/-- What a step of the worker at a place does. -/
inductive Moves (s : Station) (place : Nat) : Station → Prop where
  | rest : Moves s place s
  | read {w : Worker} {result : Except Error (List Byte)} {link : Link Unit}
      (worker : s.workers[place]? = some w) (waiting : w.progress = .waiting)
      (done : after (Link.transaction (Station.read w.length)) s.link = link) :
      Moves s place ({ s with link }.mark place w (.read result))
  | died {w : Worker} {e : Error} {link : Link Unit}
      (worker : s.workers[place]? = some w) (waiting : w.progress = .waiting)
      (failed : Link.transaction (Station.read w.length) s.link = .error e link)
      (trap : e.isTrap = true) : Moves s place ({ s with link }.mark place w .dead)
  | cleared {w : Worker} {result : Except Error (List Byte)}
      (worker : s.workers[place]? = some w) (stands : w.progress = .read result) :
      Moves s place ({ s with busy := false }.mark place w (.cleared result))
  | sent {w : Worker} {result : Except Error (List Byte)}
      (worker : s.workers[place]? = some w) (stands : w.progress = .cleared result) :
      Moves s place (s.mark place w (.sent result))

/-- Every step of a worker is one of these moves. -/
lemma advance_moves (s : Station) (place : Nat) : s.Moves place (s.advance place) := by
  unfold advance
  cases hworker : s.workers[place]? with
  | none => exact .rest
  | some w =>
    cases hprogress : w.progress with
    | waiting =>
      cases hread : Link.transaction (read w.length) s.link with
      | ok bytes link =>
        simp only [hprogress, hread]
        exact .read hworker hprogress (after_of_ok hread)
      | error e link =>
        simp only [hprogress, hread]
        split
        case isTrue htrap => exact .died hworker hprogress hread htrap
        case isFalse => exact .read hworker hprogress (after_of_error hread)
    | read result =>
      simp only [hprogress]
      exact .cleared hworker hprogress
    | cleared result =>
      simp only [hprogress]
      exact .sent hworker hprogress
    | sent result =>
      simp only [hprogress]
      exact .rest
    | dead =>
      simp only [hprogress]
      exact .rest

section
variable {length : Nat} {link : Link Unit} (hw : s.workers[place]? = some ⟨length, .waiting⟩)
include hw

/-- A worker that waits reads its capture and keeps the bytes. -/
lemma advance_of_read {bytes : List Byte}
    (hread : Link.transaction (Station.read length) s.link = .ok bytes link) :
    s.advance place = { s with link }.mark place ⟨length, .waiting⟩ (.read (.ok bytes)) := by
  simp only [advance, hw, hread]

/-- A worker that waits dies in a transaction that is killed, and keeps any other error. -/
lemma advance_of_read_error {e : Error}
    (hread : Link.transaction (Station.read length) s.link = .error e link) :
    s.advance place = { s with link }.mark place ⟨length, .waiting⟩
      (if e.isTrap then .dead else .read (.error e)) := by
  by_cases htrap : e.isTrap = true
  · simp only [advance, hw, hread, if_pos htrap]
  · simp only [advance, hw, hread, if_neg htrap]

end

/-! ## Events -/

/-- Whether an event puts no fault in wait that kills whoever issues an operation. -/
def Event.Harmless : Event → Prop
  | .bus (.expect (some f)) => f.failure ≠ .fatal
  | _ => True

/-- What an event does to a station. -/
inductive Effect (s : Station) (e : Event) : Station → Prop where
  /-- Neither the flag nor the workers change, and only a request to detach the board does so. -/
  | kept {s' : Station} (busy : s'.busy = s.busy) (pending : s'.pending = s.pending)
      (workers : s'.workers = s.workers)
      (bus : e.Harmless → s.link.bus.Only (· ≠ .fatal) → s'.link.bus.Only (· ≠ .fatal))
      (attached : s.link.attached = true → s'.link.attached = true ∨ e = .disconnect) :
      Effect s e s'
  | requested {nanos : Option Nat} {length : Nat} (request : e = .perform nanos)
      (accepted : Station.perform nanos s = .ok () (s.requested length)) :
      Effect s e (s.requested length)
  | collected (request : e = .collect) (isSome : s.collect?.isSome = true) :
      Effect s e { s with pending := none }
  | moved {place : Nat} {s' : Station} (moves : s.Moves place s') (step : e = .advance place) :
      Effect s e s'

/-- The initialisation of a capture board brings operations to it, or fails. -/
lemma brings_initialise : Brings initialise () (fun _ _ _ => True) fun _ _ => True :=
  .issue trivial fun _ => trivial

/-- The operations of a capture of a number of bytes. -/
def capturing (length : Nat) : List Primitive :=
  [.trigger Endpoint.trigger Pulse.resetCapture, .readPipe Endpoint.timetags length]

/-- A capture brings its two operations to the board, or fails with no more than the first one. -/
lemma brings_read (length : Nat) :
    Brings (Station.read length) () (fun _ ps _ => ps = capturing length)
      fun ps _ => ps <+: [.trigger Endpoint.trigger Pulse.resetCapture] :=
  .issue_bind List.nil_prefix fun _ => .issue (List.prefix_refl _) fun _ => rfl

/-- Every event does one of these things. -/
lemma apply_effect (s : Station) (e : Event) : s.Effect e (e.apply s) := by
  cases e with
  | connect =>
    show s.Effect _ (after (onLink (Link.connect initialise)) s)
    have hlink (hbus : s.link.bus.Only (· ≠ .fatal)) :=
      Link.only_connect brings_initialise nofun hbus
    have hattached : s.link.attached = true →
        (after (Link.connect initialise) s.link).attached = true := by
      intro hattached
      unfold after Link.connect
      rw [if_pos hattached]
      exact hattached
    unfold after at hlink hattached ⊢
    unfold onLink
    cases hr : Link.connect initialise s.link <;>
      · rw [hr] at hlink hattached
        exact .kept rfl rfl rfl (fun _ => hlink) (.inl ∘ hattached)
  | disconnect => exact .kept rfl rfl rfl (fun _ => id) fun _ => .inr rfl
  | setWindow nanos =>
    show s.Effect _ (after (Station.setWindow nanos) s)
    unfold after Station.setWindow
    cases s.bytesOf nanos <;> exact .kept rfl rfl rfl (fun _ => id) .inl
  | perform nanos =>
    show s.Effect _ (after (Station.perform nanos) s)
    cases hr : Station.perform nanos s with
    | error e s' =>
      rw [after_of_error hr, eq_of_perform_error hr]
      exact .kept rfl rfl rfl (fun _ => id) .inl
    | ok u s' =>
      obtain ⟨-, -, length, -, rfl⟩ := perform_eq_ok.mp hr
      rw [after_of_ok hr]
      exact .requested rfl hr
  | collect =>
    show s.Effect _ (s.collect?.elim s Prod.snd)
    cases hresult : s.collect? with
    | none => exact .kept rfl rfl rfl (fun _ => id) .inl
    | some answer =>
      rw [Option.elim_some, eq_of_collect hresult]
      exact .collected rfl (by rw [hresult]; rfl)
  | advance place => exact .moved (s.advance_moves place) rfl
  | bus e =>
    refine .kept rfl rfl rfl (fun harmless hbus => ?_) .inl
    cases e with
    -- only an expected fault changes what lies in wait
    | expect fault =>
      intro f hf
      cases hf
      exact harmless
    | _ => exact hbus

/-! ## The flag -/

/-- The worker at a place has not cleared the flag. -/
def Holder (s : Station) (place : Nat) : Prop :=
  ∃ w, s.workers[place]? = some w ∧ w.progress.Holds

/-- The flag is set exactly if a worker has not cleared it. This is the worker of the latest
request, and a result that was not collected is that of the latest request. -/
structure Orderly (s : Station) : Prop where
  busy_iff : s.busy = true ↔ ∃ place, s.Holder place
  last : ∀ place, s.Holder place → place + 1 = s.workers.length
  latest : ∀ place, s.pending = some place → place + 1 = s.workers.length

/-- Noting a worker's progress adds no worker. -/
lemma length_mark (s : Station) (place : Nat) (w : Worker) (p : Progress) :
    (s.mark place w p).workers.length = s.workers.length := List.length_set

/-- Noting a worker's progress changes that worker only. -/
lemma getElem?_mark {w : Worker} (hw : s.workers[place]? = some w) (p : Progress) (j : Nat) :
    (s.mark place w p).workers[j]? = if j = place then some { w with progress := p }
      else s.workers[j]? := by
  obtain ⟨hlt, -⟩ := List.getElem?_eq_some_iff.mp hw
  rw [mark, List.getElem?_set]
  by_cases hj : place = j
  · simp [hj, hj ▸ hlt]
  · simp [hj, Ne.symm hj]

/-- A worker whose progress is noted holds the flag as its new progress tells. -/
lemma holder_mark {w : Worker} (hw : s.workers[place]? = some w) (p : Progress) (j : Nat) :
    (s.mark place w p).Holder j ↔ if j = place then p.Holds else s.Holder j := by
  rw [Holder, getElem?_mark hw]
  by_cases hj : j = place <;> simp [hj, Holder]

/-- A worker that holds the flag, or does not, goes on doing so. -/
lemma holder_mark_of_iff {w : Worker} (hw : s.workers[place]? = some w) {p : Progress}
    (h : p.Holds ↔ w.progress.Holds) (j : Nat) : (s.mark place w p).Holder j ↔ s.Holder j := by
  rw [holder_mark hw]
  split
  case isTrue hj =>
    rw [hj, h, Holder, hw]
    simp
  case isFalse => rfl

/-- An accepted request adds one worker. -/
lemma length_requested (s : Station) (length : Nat) :
    (s.requested length).workers.length = s.workers.length + 1 := List.length_append

/-- The worker of an accepted request holds the flag, next to those that held it before. -/
lemma holder_requested (s : Station) (length j : Nat) :
    (s.requested length).Holder j ↔ s.Holder j ∨ j = s.workers.length := by
  show (∃ w, (s.workers ++ [⟨length, .waiting⟩])[j]? = some w ∧ w.progress.Holds) ↔ _
  rcases Nat.lt_trichotomy j s.workers.length with hj | rfl | hj
  · rw [List.getElem?_append_left hj, or_iff_left (Nat.ne_of_lt hj)]
    rfl
  · rw [List.getElem?_concat_length]
    simp [Progress.Holds]
  · rw [Holder, List.getElem?_eq_none (by simpa using hj), List.getElem?_eq_none (Nat.le_of_lt hj)]
    simp [Nat.ne_of_gt hj]

namespace Orderly

/-- A station with the same flag, the same holders, as many workers and no later request is as
orderly. -/
lemma of_same {s' : Station} (h : s.Orderly) (busy : s'.busy = s.busy)
    (holders : ∀ j, s'.Holder j ↔ s.Holder j) (length : s'.workers.length = s.workers.length)
    (pending : ∀ j, s'.pending = some j → s.pending = some j) : s'.Orderly := by
  constructor
  case busy_iff => rw [busy, h.busy_iff, exists_congr holders]
  case last =>
    intro j hj
    rw [length]
    exact h.last j ((holders j).mp hj)
  case latest =>
    intro j hj
    rw [length]
    exact h.latest j (pending j hj)

/-- The worker of a new request is the only one that holds the flag. -/
lemma requested (h : s.Orderly) (hidle : s.busy = false) (length : Nat) :
    (s.requested length).Orderly := by
  have free : ∀ j, ¬s.Holder j := fun j hj => Bool.eq_false_iff.mp hidle (h.busy_iff.mpr ⟨j, hj⟩)
  have holder (j : Nat) : (s.requested length).Holder j ↔ j = s.workers.length := by
    rw [holder_requested, or_iff_right (free j)]
  constructor
  case busy_iff => exact ⟨fun _ => ⟨_, (holder _).mpr rfl⟩, fun _ => rfl⟩
  case last =>
    intro j hj
    rw [(holder j).mp hj, length_requested]
  case latest =>
    intro j hj
    cases hj
    rw [length_requested]

/-- A step of a worker keeps the station orderly. -/
lemma moves (h : s.Orderly) {s' : Station} (hmoves : s.Moves place s') : s'.Orderly := by
  cases hmoves with
  | rest => exact h
  | read worker waiting _ =>
    refine h.of_same rfl (fun j => ?_) (length_mark _ _ _ _) fun _ => id
    exact
      holder_mark_of_iff (s := { s with link := _ }) worker (by simp [waiting, Progress.Holds]) j
  | died worker waiting _ _ =>
    refine h.of_same rfl (fun j => ?_) (length_mark _ _ _ _) fun _ => id
    exact
      holder_mark_of_iff (s := { s with link := _ }) worker (by simp [waiting, Progress.Holds]) j
  | sent worker stands =>
    refine h.of_same rfl (fun j => ?_) (length_mark _ _ _ _) fun _ => id
    exact holder_mark_of_iff worker (by simp [stands, Progress.Holds]) j
  | @cleared w result worker stands =>
    have held : s.Holder place := ⟨w, worker, by rw [stands]; trivial⟩
    -- the worker held the flag, so nobody does any longer
    have free : ∀ j, ¬({ s with busy := false }.mark place w (.cleared result)).Holder j := by
      intro j hj
      rw [holder_mark (s := { s with busy := false }) worker] at hj
      split at hj
      case isTrue => exact hj
      case isFalse hne =>
        have hlast := h.last j hj
        have := h.last place held
        omega
    constructor
    case busy_iff => exact ⟨nofun, fun ⟨j, hj⟩ => absurd hj (free j)⟩
    case last => exact fun j hj => absurd hj (free j)
    case latest =>
      intro j hj
      rw [length_mark]
      exact h.latest j hj

/-- Every event keeps a station orderly. -/
lemma apply (h : s.Orderly) (e : Event) : (e.apply s).Orderly := by
  have heffect := s.apply_effect e
  generalize e.apply s = s' at heffect
  cases heffect with
  | kept busy pending workers =>
    refine h.of_same busy (fun j => ?_) (congrArg List.length workers) fun j hj => pending ▸ hj
    rw [Holder, Holder, workers]
  | requested _ accepted => exact h.requested (perform_eq_ok.mp accepted).2.1 _
  | collected => exact h.of_same rfl (fun _ => Iff.rfl) rfl nofun
  | moved hmoves => exact h.moves hmoves

end Orderly

variable {config : CaptureConfiguration} {id : String} {bus : Bus}

/-- A station that was just opened has tried to connect, and nothing was asked of it yet. -/
lemma opened_cases (h : opened config id bus = .ok s) :
    s.link = after (Link.connect initialise) (Link.detached id () bus) ∧ s.busy = false ∧
      s.pending = none ∧ s.workers = [] := by
  obtain ⟨link, hlink, h⟩ := Result.bind_eq_ok.mp h
  cases h
  exact ⟨Link.eq_connect_of_opened hlink, rfl, rfl, rfl⟩

/-- A station is orderly when it is opened. -/
lemma orderly_of_opened (h : opened config id bus = .ok s) : s.Orderly := by
  obtain ⟨-, busy, pending, workers⟩ := opened_cases h
  have free : ∀ j, ¬s.Holder j := by
    rintro j ⟨w, hw, -⟩
    rw [workers] at hw
    cases hw
  constructor
  case busy_iff => rw [busy]; exact ⟨nofun, fun ⟨j, hj⟩ => absurd hj (free j)⟩
  case last => exact fun j hj => absurd hj (free j)
  case latest =>
    intro j hj
    rw [pending] at hj
    cases hj

/-- A station is orderly after any events. -/
lemma run_orderly (h : opened config id bus = .ok s) (events : List Event) :
    (s.run events).Orderly :=
  run_invariant Orderly.apply (orderly_of_opened h) events

/-! ## Workers that live -/

/-- No worker has died, and no fault that kills one lies in wait. -/
structure Alive (s : Station) : Prop where
  bus : s.link.bus.Only (· ≠ .fatal)
  workers : ∀ (place : Nat) (w : Worker), s.workers[place]? = some w → w.progress ≠ .dead

namespace Alive

/-- No worker of a newly opened station has died. -/
lemma of_opened (h : opened config id bus = .ok s) (hbus : bus.Only (· ≠ .fatal)) : s.Alive := by
  obtain ⟨hlink, -, -, hworkers⟩ := opened_cases h
  constructor
  case bus =>
    rw [hlink]
    exact Link.only_connect brings_initialise nofun hbus
  case workers =>
    intro place w hw
    rw [hworkers] at hw
    cases hw

/-- Noting progress other than death kills no worker. -/
lemma mark (h : s.Alive) {w : Worker} (hw : s.workers[place]? = some w) {p : Progress}
    (hp : p ≠ .dead) : (s.mark place w p).Alive := by
  refine ⟨h.bus, fun j w' hw' => ?_⟩
  rw [getElem?_mark hw] at hw'
  split at hw'
  · cases hw'
    exact hp
  · exact h.workers j w' hw'

/-- Without a fatal fault in wait, no step kills a worker. -/
lemma moves (h : s.Alive) {s' : Station} (hmoves : s.Moves place s') : s'.Alive := by
  cases hmoves with
  | rest => exact h
  | @read w _ _ worker _ done =>
    have hbus := Link.only_transaction (brings_read w.length) nofun h.bus
    rw [done] at hbus
    exact mark (s := { s with link := _ }) ⟨hbus, h.workers⟩ worker (by nofun)
  | died _ _ failed trap =>
    -- a transaction does not fail like that without a fault that kills
    rcases Link.error_of_transaction (brings_read _) nofun h.bus failed with rfl | ⟨f, rfl, hf⟩
    · cases trap
    · cases f with
      | reported f => cases trap
      | fatal => exact absurd rfl hf
  | cleared worker _ =>
    exact mark (s := { s with busy := false }) ⟨h.bus, h.workers⟩ worker (by nofun)
  | sent worker _ => exact h.mark worker (by nofun)

/-- A new worker waits, and is alive. -/
lemma requested (h : s.Alive) (length : Nat) : (s.requested length).Alive := by
  refine ⟨h.bus, fun j w hw => ?_⟩
  rcases List.mem_append.mp (List.mem_of_getElem? hw) with hw | hw
  · obtain ⟨place, hplace⟩ := List.mem_iff_getElem?.mp hw
    exact h.workers place w hplace
  · cases List.mem_singleton.mp hw
    nofun

/-- Without a fault that kills, every event leaves the workers alive. -/
lemma apply (h : s.Alive) {e : Event} (he : e.Harmless) : (e.apply s).Alive := by
  have heffect := s.apply_effect e
  generalize e.apply s = s' at heffect
  cases heffect with
  | kept _ _ workers bus => exact ⟨bus he h.bus, workers ▸ h.workers⟩
  | requested => exact h.requested _
  | collected => exact ⟨h.bus, h.workers⟩
  | moved hmoves => exact h.moves hmoves

end Alive

/-- Harmless events kill no worker. -/
lemma run_alive (h : s.Alive) {events : List Event} (harmless : ∀ e ∈ events, e.Harmless) :
    (s.run events).Alive := by
  induction events generalizing s with
  | nil => exact h
  | cons e rest ih =>
    obtain ⟨he, hrest⟩ := List.forall_mem_cons.mp harmless
    exact ih (h.apply he) hrest

end Station

end PulseSequencer

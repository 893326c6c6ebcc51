import PulseSequencer.Proofs.Board.Pipes
import PulseSequencer.Proofs.Capture.Release

/-!
# Whose result is given out

Workers take their steps at any moments between the requests of a caller. A worker clears the flag
before it sends its result, so the next request may be accepted while that result is on its way;
then nobody waits for it any more. What is given out is the result of the latest request, and it is
given out once.

* `Progress.answer`, `Progress.toGo`: the answer of a worker, and the steps that it has yet to take.
* `Station.Yields`: what a capture that is read from a link yields.
* `Station.Ran`: the worker at a place read its capture in the course of events.
* `Station.Exclusive`: at most one worker holds the flag, and requests are refused while one does.
* `Station.Delivers`: which result is given out after events.
* `Station.exclusive_delivers`: both hold for every run; `Station.overtaken_delivers` is one in
  which a result is overtaken by the next request, and goes on to a capture that succeeds.
-/

namespace PulseSequencer

namespace Progress

/-- The answer that the worker of a request gives, as soon as it is known. -/
def answer : Progress → Option (Except Error Capture)
  | waiting => none
  | read result | cleared result | sent result => some (Station.outcome result)
  | dead => some (.error (.invalidMode .captureAbandoned))

/-- The number of steps that a worker has yet to take. -/
def toGo : Progress → Nat
  | waiting => 3
  | read _ => 2
  | cleared _ => 1
  | sent _ | dead => 0

end Progress

namespace Station

variable {s t : Station} {events later : List Event} {place length : Nat}

/-! ## Captures -/

/-- What a capture of a number of bytes that is read from a link yields. -/
inductive Yields (l : Link Unit) (length : Nat) : Except Error Capture → Prop where
  /-- The bytes that the pipe gives, as many as were asked for, in sparse form. -/
  | capture {bytes : List Byte} {l' : Link Unit}
      (done : Link.transaction (read length) l = .ok bytes l')
      (pipe : bytes = l.bus.board.pipeBytes Endpoint.timetags length)
      (size : bytes.length = length) : Yields l length (.ok (.ofBytes bytes))
  /-- The failure of an operation on the bus. -/
  | failed {f : TransportFailure} {l' : Link Unit}
      (failed : Link.transaction (read length) l = .error (.transport f) l') :
      Yields l length (.error (.transport f))
  /-- No board is attached. -/
  | detached (detached : l.attached = false) : Yields l length (.error .deviceNotConnected)
  /-- The worker died in the transaction. -/
  | abandoned {l' : Link Unit}
      (killed : Link.transaction (read length) l = .error (.trap .killed) l') :
      Yields l length (.error (.invalidMode .captureAbandoned))

/-- A capture reads what waits in the pipe before its first operation. -/
lemma eq_pipeBytes_of_read {h h' : Held Unit} {bytes : List Byte}
    (hread : read length h = .ok bytes h') :
    bytes = h.bus.board.pipeBytes Endpoint.timetags length := by
  obtain ⟨_, h₁, htrigger, hpipe⟩ := ok_of_bind hread
  obtain ⟨-, hboard⟩ := Action.issue_of_ok htrigger
  obtain ⟨-, -, hbytes⟩ := Action.carried_of_ok hpipe
  -- the trigger of a capture board leaves what waits in the pipe
  rw [hbytes, hboard]
  rfl

/-- A reading that succeeds yields the capture of its bytes. -/
lemma yields_of_ok {l l' : Link Unit} {bytes : List Byte}
    (h : Link.transaction (read length) l = .ok bytes l') :
    Yields l length (.ok (.ofBytes bytes)) := by
  obtain ⟨-, held, hread, -⟩ := Link.transaction_of_ok h
  have hpipe : bytes = l.bus.board.pipeBytes Endpoint.timetags length := eq_pipeBytes_of_read hread
  exact .capture h hpipe (hpipe ▸ Board.length_pipeBytes _ _ _)

/-- A reading that fails yields its error, or the error of a worker that died. -/
lemma yields_of_error {l l' : Link Unit} {e : Error}
    (h : Link.transaction (read length) l = .error e l') :
    Yields l length (if e.isTrap then .error (.invalidMode .captureAbandoned) else .error e) := by
  rcases Link.transaction_cases_of_error h with ⟨hattached, rfl, -⟩ | ⟨held, hread, -⟩
  · exact .detached hattached
  · obtain ⟨_, -, hfails⟩ := (brings_read length).of_error hread
    obtain ⟨f, rfl⟩ := hfails.ofBus
    cases f with
    | reported f => exact .failed h
    | fatal => exact .abandoned h

/-! ## One event -/

/-- The first step of a worker decides its answer. -/
lemma advance_of_waiting (hw : s.workers[place]? = some ⟨length, .waiting⟩) :
    ∃ p result, (s.advance place).workers[place]? = some ⟨length, p⟩ ∧ p.answer = some result ∧
      p.toGo ≤ 2 ∧ Yields s.link length result := by
  have worker (link : Link Unit) (p : Progress) :
      ({ s with link }.mark place ⟨length, .waiting⟩ p).workers[place]? = some ⟨length, p⟩ := by
    rw [getElem?_mark (s := { s with link }) hw, if_pos rfl]
  cases hread : Link.transaction (read length) s.link with
  | ok bytes link =>
    rw [advance_of_read hw hread]
    exact ⟨.read (.ok bytes), _, worker _ _, rfl, Nat.le_refl 2, yields_of_ok hread⟩
  | error e link =>
    have hyields := yields_of_error hread
    rw [advance_of_read_error hw hread]
    by_cases htrap : e.isTrap = true
    · rw [if_pos htrap] at hyields ⊢
      exact ⟨.dead, _, worker _ _, rfl, Nat.zero_le 2, hyields⟩
    · rw [if_neg htrap] at hyields ⊢
      exact ⟨.read (.error e), _, worker _ _, rfl, Nat.le_refl 2, hyields⟩

/-- Later steps of a worker keep its answer and come closer to sending it. -/
lemma advance_of_answer {p : Progress} {result : Except Error Capture}
    (hw : s.workers[place]? = some ⟨length, p⟩) (hp : p.answer = some result) :
    ∃ p', (s.advance place).workers[place]? = some ⟨length, p'⟩ ∧ p'.answer = some result ∧
      p'.toGo ≤ p.toGo - 1 := by
  cases p with
  | waiting => cases hp
  | read r =>
    refine ⟨.cleared r, ?_, hp, Nat.le_refl 1⟩
    simp only [advance, hw]
    rw [getElem?_mark (s := { s with busy := false }) hw, if_pos rfl]
  | cleared r =>
    refine ⟨.sent r, ?_, hp, Nat.le_refl 0⟩
    simp only [advance, hw]
    rw [getElem?_mark hw, if_pos rfl]
  | sent r => exact ⟨.sent r, by simp only [advance, hw], hp, Nat.le_refl 0⟩
  | dead => exact ⟨.dead, by simp only [advance, hw], hp, Nat.le_refl 0⟩

/-- Nothing but its own steps changes a worker. -/
lemma getElem?_apply {w : Worker} {e : Event} (hw : s.workers[place]? = some w)
    (he : e ≠ .advance place) : (e.apply s).workers[place]? = some w := by
  have heffect := s.apply_effect e
  generalize e.apply s = s' at heffect
  cases heffect with
  | kept _ _ workers => rw [workers, hw]
  | requested =>
    obtain ⟨hlt, -⟩ := List.getElem?_eq_some_iff.mp hw
    exact (List.getElem?_append_left hlt).trans hw
  | collected => exact hw
  | @moved other _ hmoves step =>
    have hne : place ≠ other := fun h => he (h ▸ step)
    cases hmoves with
    | rest => exact hw
    | @read _ _ link worker => rw [getElem?_mark (s := { s with link }) worker, if_neg hne, hw]
    | @died _ _ link worker => rw [getElem?_mark (s := { s with link }) worker, if_neg hne, hw]
    | cleared worker => rw [getElem?_mark (s := { s with busy := false }) worker, if_neg hne, hw]
    | sent worker => rw [getElem?_mark worker, if_neg hne, hw]

/-- While the worker of the latest request waits, nobody else works on the link: the board stays
attached unless it is asked to be detached. -/
lemma attached_apply (h : s.Orderly) {e : Event}
    (hw : s.workers[place]? = some ⟨length, .waiting⟩) (he : e ≠ .advance place)
    (hattached : s.link.attached = true) :
    (e.apply s).link.attached = true ∨ e = .disconnect := by
  have only : ∀ j w, s.workers[j]? = some w → w.progress = .waiting → j = place := by
    intro j w hj hwaiting
    have := h.last j ⟨w, hj, by rw [hwaiting]; trivial⟩
    have := h.last place ⟨_, hw, trivial⟩
    omega
  have heffect := s.apply_effect e
  generalize e.apply s = s' at heffect
  cases heffect with
  | kept _ _ _ _ attached => exact attached hattached
  | requested | collected => exact .inl hattached
  | moved hmoves step =>
    cases hmoves with
    | rest | cleared | sent => exact .inl hattached
    | read worker waiting => exact absurd (only _ _ worker waiting ▸ step) he
    | died worker waiting => exact absurd (only _ _ worker waiting ▸ step) he

/-! ## The course of a request -/

/-- In the course of events the worker at a place read its capture, with a result. Only if the board
was asked to be detached before, there was none to read from. -/
def Ran (t : Station) (later : List Event) (place length : Nat) (result : Except Error Capture) :
    Prop :=
  ∃ before rest, later = before ++ .advance place :: rest ∧
    (t.run before).workers[place]? = some ⟨length, .waiting⟩ ∧
    Yields (t.run before).link length result ∧
    (result = .error .deviceNotConnected → .disconnect ∈ before)

/-- A worker that read its capture has done so however the run goes on. -/
lemma Ran.append_right {result : Except Error Capture} (h : t.Ran later place length result)
    (more : List Event) : t.Ran (later ++ more) place length result := by
  obtain ⟨before, rest, rfl, h⟩ := h
  exact ⟨before, rest ++ more, by simp, h⟩

/-- How far the worker of a request has come in the course of events. -/
inductive Stands (t : Station) (later : List Event) (place length : Nat) : Prop where
  | waiting (worker : (t.run later).workers[place]? = some ⟨length, .waiting⟩)
      (attached : (t.run later).link.attached = true ∨ .disconnect ∈ later) :
      Stands t later place length
  | answered {p : Progress} {result : Except Error Capture}
      (worker : (t.run later).workers[place]? = some ⟨length, p⟩) (answer : p.answer = some result)
      (ran : t.Ran later place length result) : Stands t later place length

/-- A worker that waits on an attached board reads its capture with its first step. -/
lemma stands_run (orderly : ∀ later, (t.run later).Orderly)
    (hw : t.workers[place]? = some ⟨length, .waiting⟩) (hattached : t.link.attached = true)
    (later : List Event) : t.Stands later place length := by
  induction later using List.reverseRecOn with
  | nil => exact .waiting hw (.inl hattached)
  | append_singleton later e ih =>
    have hrun : t.run (later ++ [e]) = e.apply (t.run later) := run_append t later [e]
    -- a worker reads with its own step, and nothing else changes it
    by_cases he : e = .advance place
    · subst he
      cases ih with
      | waiting worker attached =>
        obtain ⟨p, result, hworker, hanswer, -, hyields⟩ := advance_of_waiting worker
        refine .answered (hrun ▸ hworker) hanswer ⟨later, [], rfl, worker, hyields, ?_⟩
        rintro rfl
        cases hyields with
        | detached detached => exact attached.resolve_left (Bool.eq_false_iff.mp detached)
      | answered worker answer ran =>
        obtain ⟨p, hworker, hanswer, -⟩ := advance_of_answer worker answer
        exact .answered (hrun ▸ hworker) hanswer (ran.append_right _)
    · cases ih with
      | waiting worker attached =>
        refine .waiting (hrun ▸ getElem?_apply worker he) ?_
        rcases attached with attached | hmem
        · rw [hrun]
          refine (attached_apply (orderly later) worker he attached).imp_right ?_
          rintro rfl
          exact List.mem_append_right _ (List.mem_singleton_self _)
        · exact .inr (List.mem_append_left _ hmem)
      | answered worker answer ran =>
        exact .answered (hrun ▸ getElem?_apply worker he) answer (ran.append_right _)

/-! ## Results -/

/-- A result is given out in a run. -/
def Answered : Station → List Event → Prop
  | _, [] => False
  | s, e :: rest => (e = .collect ∧ s.collect?.isSome = true) ∨ (e.apply s).Answered rest

/-- Until a request is accepted, the pending result stays, up to the moment at which it is given
out. -/
lemma pending_run (h : t.NoneAccepted later) :
    (t.Answered later → (t.run later).pending = none) ∧
      (¬t.Answered later → (t.run later).pending = t.pending) := by
  induction later generalizing t with
  | nil => exact ⟨nofun, fun _ => rfl⟩
  | cons e rest ih =>
    obtain ⟨hgiven, hkept⟩ := ih h.2
    constructor
    · intro hanswered
      by_cases hrest : (e.apply t).Answered rest
      · exact hgiven hrest
      · obtain ⟨rfl, hsome⟩ := hanswered.resolve_right hrest
        obtain ⟨⟨result, t'⟩, hcollect⟩ := Option.isSome_iff_exists.mp hsome
        refine (hkept hrest).trans ?_
        show (t.collect?.elim t Prod.snd).pending = none
        rw [hcollect, Option.elim_some, eq_of_collect hcollect]
    · intro hnone
      obtain ⟨hnow, hrest⟩ := not_or.mp hnone
      exact (hkept hrest).trans ((apply_of_not_accepts h.1).2.resolve_right hnow)

/-- Nothing is given out if no result is pending, and the station stays as it is. -/
lemma collect_of_pending_none (h : s.pending = none) :
    s.collect? = some (.error (.invalidMode .noCaptureRequested), s) := by
  simp only [collect?, h]

/-- What is given out is the answer of the worker of the pending result. -/
lemma answer_of_collect {p : Progress} {result : Except Error Capture} {s' : Station}
    (hpending : s.pending = some place) (hw : s.workers[place]? = some ⟨length, p⟩)
    (h : s.collect? = some (result, s')) : p.answer = some result := by
  simp only [collect?, hpending, hw] at h
  cases p with
  | waiting | read | cleared => cases h
  | sent | dead =>
    cases h
    rfl

/-- A result is given out once its worker has no step left to take. -/
lemma isSome_collect {p : Progress} (hpending : s.pending = some place)
    (hw : s.workers[place]? = some ⟨length, p⟩) (hp : p.toGo = 0) : s.collect?.isSome = true := by
  simp only [collect?, hpending, hw]
  cases p with
  | waiting | read | cleared => cases hp
  | sent | dead => rfl

/-- No step of a worker changes which result is pending. -/
lemma pending_advance (s : Station) (place : Nat) : (s.advance place).pending = s.pending := by
  have hmoves := s.advance_moves place
  generalize s.advance place = s' at hmoves
  cases hmoves <;> rfl

/-- A worker needs three steps at most. -/
lemma isSome_settle (hpending : s.pending = some place) {p : Progress}
    (hw : s.workers[place]? = some ⟨length, p⟩) : (s.settle place).collect?.isSome = true := by
  -- the first step leads to an answer, and two more to its being sent
  obtain ⟨p₁, result, hw₁, hanswer₁, hgo₁⟩ : ∃ p₁ result,
      (s.advance place).workers[place]? = some ⟨length, p₁⟩ ∧ p₁.answer = some result ∧
        p₁.toGo ≤ 2 := by
    cases hp : p.answer with
    | none =>
      cases p with
      | waiting =>
        obtain ⟨p₁, result, hw₁, hanswer₁, hgo₁, -⟩ := advance_of_waiting hw
        exact ⟨p₁, result, hw₁, hanswer₁, hgo₁⟩
      | read | cleared | sent | dead => cases hp
    | some result =>
      obtain ⟨p₁, hw₁, hanswer₁, hgo₁⟩ := advance_of_answer hw hp
      have : p.toGo ≤ 3 := by cases p <;> simp [Progress.toGo]
      exact ⟨p₁, result, hw₁, hanswer₁, by omega⟩
  obtain ⟨p₂, hw₂, hanswer₂, hgo₂⟩ := advance_of_answer hw₁ hanswer₁
  obtain ⟨p₃, hw₃, -, hgo₃⟩ := advance_of_answer hw₂ hanswer₂
  refine isSome_collect ?_ hw₃ (by omega)
  rw [settle, pending_advance, pending_advance, pending_advance, hpending]

/-! ## Every run -/

/-- At most one worker has not cleared the flag, and exactly while there is one, a request for a
valid window on the attached board is refused as busy. Otherwise it is accepted. -/
structure Exclusive (s : Station) : Prop where
  unique : ∀ i j, s.Holder i → s.Holder j → i = j
  busy_iff : ∀ nanos length, s.link.attached = true →
    s.bytesOf (nanos.getD s.window) = .ok length →
    (perform nanos s = .error (.busy .capture) s ↔ ∃ place, s.Holder place)
  accepts_iff : ∀ nanos length, s.link.attached = true →
    s.bytesOf (nanos.getD s.window) = .ok length →
    (s.Accepts (.perform nanos) ↔ ¬∃ place, s.Holder place)

/-- In an orderly station one worker at most holds the flag. -/
lemma Orderly.exclusive (h : s.Orderly) : s.Exclusive := by
  constructor
  case unique =>
    intro i j hi hj
    have := h.last i hi
    have := h.last j hj
    omega
  case busy_iff =>
    intro nanos length hattached hlength
    rw [← h.busy_iff]
    cases hbusy : s.busy <;> simp [perform, hattached, hlength, hbusy]
  case accepts_iff =>
    intro nanos length hattached hlength
    rw [← h.busy_iff]
    constructor
    · rintro ⟨_, s', hnanos, hperform⟩ hbusy
      rw [(perform_eq_ok.mp hperform).2.1] at hbusy
      cases hbusy
    · intro hbusy
      exact (released_of_idle (Bool.eq_false_iff.mpr hbusy)).accepts nanos length hattached hlength

/-- A request is accepted in a run, and none after it. -/
structure Latest (s : Station) (before : List Event) (nanos : Option Nat) (later : List Event) :
    Prop where
  accepted : (s.run before).Accepts (.perform nanos)
  none_since : (s.run (before ++ [.perform nanos])).NoneAccepted later

/-- What is given out after events that follow the request of the worker at a place: once, and only
once, its result, which is there after three steps of the worker at the latest. -/
structure Gives (t : Station) (later : List Event) (place length : Nat) : Prop where
  result : ¬t.Answered later → ∀ result t', (t.run later).collect? = some (result, t') →
    t.Ran later place length result
  comes : ((t.run later).settle place).collect?.isSome = true
  once : t.Answered later →
    (t.run later).collect? = some (.error (.invalidMode .noCaptureRequested), t.run later)

/-- What is given out after events: nothing before a request was accepted, and then the result of
the latest one. -/
structure Delivers (s : Station) (events : List Event) : Prop where
  cases : s.NoneAccepted events ∨
    ∃ before nanos later, events = before ++ .perform nanos :: later ∧ s.Latest before nanos later
  none_requested : s.NoneAccepted events →
    (s.run events).collect? = some (.error (.invalidMode .noCaptureRequested), s.run events)
  latest : ∀ before nanos later, events = before ++ .perform nanos :: later →
    s.Latest before nanos later → ∃ length,
      (s.run before).bytesOf (nanos.getD (s.run before).window) = .ok length ∧
        (s.run (before ++ [.perform nanos])).Gives later (s.run before).workers.length length

/-- A run accepts no request if its last event, and the run before it, accept none. -/
lemma noneAccepted_concat (h : t.NoneAccepted later) {e : Event}
    (he : ¬(t.run later).Accepts e) : t.NoneAccepted (later ++ [e]) := by
  induction later generalizing t with
  | nil => exact ⟨he, trivial⟩
  | cons first rest ih => exact ⟨h.1, ih h.2 he⟩

/-- In every run no request is accepted, or one of them is the latest. -/
lemma noneAccepted_or_latest (s : Station) (events : List Event) :
    s.NoneAccepted events ∨
      ∃ before nanos later, events = before ++ .perform nanos :: later ∧
        s.Latest before nanos later := by
  induction events using List.reverseRecOn with
  | nil => exact .inl trivial
  | append_singleton events e ih =>
    by_cases he : (s.run events).Accepts e
    · obtain ⟨nanos, s', rfl, hperform⟩ := he
      exact .inr ⟨events, nanos, [], rfl, ⟨nanos, s', rfl, hperform⟩, trivial⟩
    · refine ih.imp (noneAccepted_concat · he) ?_
      rintro ⟨before, nanos, later, rfl, accepted, none_since⟩
      refine ⟨before, nanos, later ++ [e], by simp, accepted, noneAccepted_concat none_since ?_⟩
      rwa [← run_append, List.append_assoc]

variable {config : CaptureConfiguration} {id : String} {bus : Bus}

/-- After an accepted request its own result is given out, until another one is accepted. -/
lemma gives_of_requested (orderly : ∀ later, (t.run later).Orderly)
    (hw : t.workers[place]? = some ⟨length, .waiting⟩) (hattached : t.link.attached = true)
    (hpending : t.pending = some place) (hnone : t.NoneAccepted later) :
    t.Gives later place length := by
  obtain ⟨hgiven, hkept⟩ := pending_run hnone
  have stands := stands_run orderly hw hattached later
  constructor
  case result =>
    intro hanswered result t' hcollect
    have hpending' := (hkept hanswered).trans hpending
    cases stands with
    | waiting worker => cases answer_of_collect hpending' worker hcollect
    | answered worker answer ran =>
      cases answer.symm.trans (answer_of_collect hpending' worker hcollect)
      exact ran
  case comes =>
    by_cases hanswered : t.Answered later
    · have : ((t.run later).settle place).pending = none := by
        rw [settle, pending_advance, pending_advance, pending_advance, hgiven hanswered]
      rw [collect_of_pending_none this]
      rfl
    · cases stands with
      | waiting worker => exact isSome_settle ((hkept hanswered).trans hpending) worker
      | answered worker => exact isSome_settle ((hkept hanswered).trans hpending) worker
  case once => exact fun hanswered => collect_of_pending_none (hgiven hanswered)

/-- Every run of an opened station gives out the results that it should. -/
lemma delivers_of_opened (h : opened config id bus = .ok s) (events : List Event) :
    s.Delivers events := by
  constructor
  case cases => exact s.noneAccepted_or_latest events
  case none_requested =>
    intro hnone
    obtain ⟨hgiven, hkept⟩ := pending_run hnone
    refine collect_of_pending_none ?_
    by_cases hanswered : s.Answered events
    · exact hgiven hanswered
    · exact (hkept hanswered).trans (opened_cases h).2.2.1
  case latest =>
    rintro before nanos later rfl ⟨⟨_, s', hnanos, hperform⟩, none_since⟩
    cases hnanos
    obtain ⟨hattached, -, length, hlength, rfl⟩ := perform_eq_ok.mp hperform
    refine ⟨length, hlength, ?_⟩
    have orderly (later : List Event) :
        ((s.run (before ++ [.perform nanos])).run later).Orderly := by
      rw [← run_append]
      exact run_orderly h _
    have hrun : s.run (before ++ [.perform nanos]) = (s.run before).requested length := by
      rw [run_append]
      exact after_of_ok hperform
    rw [hrun] at orderly none_since ⊢
    exact gives_of_requested orderly List.getElem?_concat_length hattached rfl none_since

/-- After every run at most one worker has not cleared the flag, which refuses requests exactly
meanwhile, and each result that is given out is that of the latest request. -/
theorem exclusive_delivers (h : opened config id bus = .ok s) (events : List Event) :
    (s.run events).Exclusive ∧ s.Delivers events :=
  ⟨(run_orderly h events).exclusive, delivers_of_opened h events⟩

/-- A request is accepted while the result of the one before is still on its way, and fails. -/
def overtaken : List Event :=
  [.perform (some 40960), .advance 0, .advance 0, .perform (some 81920), .advance 0,
    .bus (.expect (some ⟨0, .reported (.failed "trigger" "timeout")⟩)), .advance 1, .advance 1,
    .advance 1]

/-- Its result is given out, and a third request reads 1024 bytes from a pipe in which three
wait. -/
def recovered : List Event :=
  overtaken ++ [.collect, .bus (.pushPipe Endpoint.timetags [0, 7, 0]), .perform (some 40960),
    .advance 2, .advance 2, .advance 2]

set_option maxRecDepth 20000 in
/-- The result that is given out is the failure of the second request, and then the bytes that the
third one has read. -/
theorem overtaken_delivers :
    opened .default "TimeResolvedFPGA" (.new .new) = .ok standard ∧
      (standard.run overtaken).Exclusive ∧ standard.Delivers overtaken ∧
      (standard.run overtaken).collect?.map Prod.fst =
        some (.error (.transport (.failed "trigger" "timeout"))) ∧
      standard.Delivers recovered ∧
      (standard.run recovered).collect?.map Prod.fst = some (.ok ⟨1024, [(1, 7)]⟩) := by
  obtain ⟨exclusive, delivers⟩ := exclusive_delivers opened_standard overtaken
  exact ⟨opened_standard, exclusive, delivers, rfl,
    (exclusive_delivers opened_standard recovered).2, rfl⟩

end Station

end PulseSequencer

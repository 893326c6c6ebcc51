import PulseSequencer.Proofs.Capture.Run

/-!
# When a capture board is free again

A result is given out once the worker of the latest request has sent it, and before that the worker
has cleared the flag: nothing keeps the next request away. A worker that died has not cleared the
flag. Its result is given out too, as an error, and the board stays busy for ever.

* `Station.Released`: no capture is under way, and a request for a valid window is accepted.
* `Station.Releases`: the board is free from each result on until a request is accepted.
* `Station.Abandons`: a result is given out for a worker that died.
* `Station.releases_iff`: which runs release the board; `Station.busy_after_death` is a run that
  does not.
-/

namespace PulseSequencer.Station

variable {s : Station} {events : List Event}

/-- A request is accepted. -/
def Accepts (s : Station) (e : Event) : Prop :=
  ∃ nanos s', e = .perform nanos ∧ perform nanos s = .ok () s'

/-- No request of a run is accepted. -/
def NoneAccepted : Station → List Event → Prop
  | _, [] => True
  | s, e :: rest => ¬s.Accepts e ∧ (e.apply s).NoneAccepted rest

/-- No capture is under way, and a request for a valid window is accepted on an attached board. -/
structure Released (s : Station) : Prop where
  idle : s.busy = false
  accepts : ∀ nanos length, s.link.attached = true →
    s.bytesOf (nanos.getD s.window) = .ok length → s.Accepts (.perform nanos)

/-- Whenever a result was given out in a run, and no request was accepted since, the board is
released. -/
def Releases (s : Station) (events : List Event) : Prop :=
  ∀ before later rest, events = before ++ .collect :: (later ++ rest) →
    (s.run before).collect?.isSome = true → (s.run (before ++ [.collect])).NoneAccepted later →
    (s.run (before ++ .collect :: later)).Released

/-- The worker of the result that is not collected yet has died. -/
def Abandoned (s : Station) : Prop :=
  ∃ place w, s.pending = some place ∧ s.workers[place]? = some w ∧ w.progress = .dead

/-- A run gives out a result for a worker that died. -/
def Abandons (s : Station) (events : List Event) : Prop :=
  ∃ before later, events = before ++ .collect :: later ∧ (s.run before).Abandoned

/-! ## One event -/

/-- A clear flag is all that a request for a valid window needs. -/
lemma released_of_idle (h : s.busy = false) : s.Released :=
  ⟨h, fun nanos length hattached hlength =>
    ⟨nanos, _, rfl, perform_eq_ok.mpr ⟨hattached, h, length, hlength, rfl⟩⟩⟩

/-- Only an accepted request sets the flag, and without one only a result that is given out changes
what is pending. -/
lemma apply_of_not_accepts {e : Event} (he : ¬s.Accepts e) :
    ((e.apply s).busy = true → s.busy = true) ∧
      ((e.apply s).pending = s.pending ∨ e = .collect ∧ s.collect?.isSome = true) := by
  have heffect := s.apply_effect e
  generalize e.apply s = s' at heffect
  cases heffect with
  | kept busy pending _ _ => exact ⟨fun h => busy ▸ h, .inl pending⟩
  | requested request accepted => exact absurd ⟨_, _, request, accepted⟩ he
  | collected request isSome => exact ⟨id, .inr ⟨request, isSome⟩⟩
  | moved hmoves =>
    cases hmoves with
    | rest | read | died | sent => exact ⟨id, .inl rfl⟩
    | cleared => exact ⟨nofun, .inl rfl⟩

/-- Only an accepted request sets the flag. -/
lemma idle_of_noneAccepted (hidle : s.busy = false) (h : s.NoneAccepted events) :
    (s.run events).busy = false := by
  induction events generalizing s with
  | nil => exact hidle
  | cons e rest ih =>
    have hnext : (e.apply s).busy = false :=
      Bool.eq_false_iff.mpr fun hbusy =>
        Bool.eq_false_iff.mp hidle ((apply_of_not_accepts h.1).1 hbusy)
    exact ih hnext h.2

/-- To give out a result, or to wait for it, does not change the flag. -/
lemma busy_collect (s : Station) : (Event.collect.apply s).busy = s.busy := by
  show (s.collect?.elim s Prod.snd).busy = s.busy
  cases hresult : s.collect? with
  | none => rfl
  | some answer => rw [Option.elim_some, eq_of_collect hresult]

/-- The result of a worker that died is given out. -/
lemma isSome_of_abandoned (h : s.Abandoned) : s.collect?.isSome = true := by
  obtain ⟨place, ⟨length, progress⟩, hpending, hw, rfl⟩ := h
  simp only [collect?, hpending, hw, Option.isSome_some]

/-- The worker of a result that is given out is done with the flag, unless it died. -/
lemma not_holder_of_collect {place : Nat} (hpending : s.pending = some place)
    (alive : ¬s.Abandoned) (hsome : s.collect?.isSome = true) : ¬s.Holder place := by
  rintro ⟨⟨length, progress⟩, hw, holds⟩
  simp only [collect?, hpending, hw] at hsome
  cases progress with
  | waiting | read => cases hsome
  | cleared | sent => exact holds
  | dead => exact alive ⟨place, _, hpending, hw, rfl⟩

/-- While no result of a worker that died was given out, the flag is set only if a result is
pending. -/
lemma idle_of_collect (h : s.Orderly) (prompt : s.pending = none → s.busy = false)
    (alive : ¬s.Abandoned) (hsome : s.collect?.isSome = true) : s.busy = false := by
  cases hpending : s.pending with
  | none => exact prompt hpending
  | some place =>
    rw [Bool.eq_false_iff, ne_eq, h.busy_iff]
    rintro ⟨j, hj⟩
    have same : j = place := by
      have := h.last j hj
      have := h.latest place hpending
      omega
    rw [same] at hj
    exact not_holder_of_collect hpending alive hsome hj

/-! ## Runs -/

variable {config : CaptureConfiguration} {id : String} {bus : Bus}

/-- A result that was given out for a dead worker stays so in a longer run. -/
lemma Abandons.append_right (h : s.Abandons events) (more : List Event) :
    s.Abandons (events ++ more) := by
  obtain ⟨before, later, rfl, habandoned⟩ := h
  exact ⟨before, later ++ more, by simp, habandoned⟩

/-- Unless a result of a worker that died was given out, the flag is set only while a result is
pending. -/
lemma prompt_of_not_abandons (h : opened config id bus = .ok s) (alive : ¬s.Abandons events) :
    (s.run events).pending = none → (s.run events).busy = false := by
  induction events using List.reverseRecOn with
  | nil => exact fun _ => (opened_cases h).2.1
  | append_singleton events e ih =>
    have prompt := ih fun habandons => alive (habandons.append_right [e])
    have hrun : s.run (events ++ [e]) = e.apply (s.run events) := run_append s events [e]
    rw [hrun]
    intro hpending
    by_cases he : (s.run events).Accepts e
    · -- the result of this request is pending
      obtain ⟨nanos, s', rfl, hperform⟩ := he
      obtain ⟨-, -, length, -, rfl⟩ := perform_eq_ok.mp hperform
      rw [Event.apply, after_of_ok hperform] at hpending
      cases hpending
    · obtain ⟨hbusy, hsame | ⟨rfl, hsome⟩⟩ := apply_of_not_accepts he
      · rw [hsame] at hpending
        exact Bool.eq_false_iff.mpr fun h => Bool.eq_false_iff.mp (prompt hpending) (hbusy h)
      · have hidle : (s.run events).busy = false :=
          idle_of_collect (run_orderly h events) prompt
            (fun habandoned => alive ⟨events, [], rfl, habandoned⟩) hsome
        exact Bool.eq_false_iff.mpr fun h => Bool.eq_false_iff.mp hidle (hbusy h)

/-- If no result of a dead worker is given out, every result releases the board. -/
lemma releases_of_not_abandons (h : opened config id bus = .ok s) (alive : ¬s.Abandons events) :
    s.Releases events := by
  rintro before later rest rfl hsome hnone
  have prompt := prompt_of_not_abandons h fun habandons => alive (habandons.append_right _)
  have hidle : (s.run before).busy = false :=
    idle_of_collect (run_orderly h before) prompt
      (fun habandoned => alive ⟨before, _, rfl, habandoned⟩) hsome
  have hcollected : (s.run (before ++ [.collect])).busy = false := by
    rw [run_append]
    exact (busy_collect _).trans hidle
  have hrun : s.run (before ++ .collect :: later) = (s.run (before ++ [.collect])).run later := by
    rw [← run_append, List.append_assoc]
    rfl
  rw [hrun]
  exact released_of_idle (idle_of_noneAccepted hcollected hnone)

/-- If every result releases the board, no result of a dead worker is given out. -/
lemma not_abandons_of_releases (h : opened config id bus = .ok s) (releases : s.Releases events) :
    ¬s.Abandons events := by
  rintro ⟨before, later, rfl, habandoned⟩
  have hidle := (releases before [] later rfl (isSome_of_abandoned habandoned) trivial).idle
  rw [run_append] at hidle
  obtain ⟨place, w, -, hw, hdead⟩ := habandoned
  have holder : (s.run before).Holder place := ⟨w, hw, by rw [hdead]; trivial⟩
  have hbusy := (run_orderly h before).busy_iff.mpr ⟨place, holder⟩
  rw [← busy_collect] at hbusy
  exact Bool.eq_false_iff.mp hidle hbusy

/-- A run releases the board exactly if it gives out no result of a worker that died. In particular,
it does so if none of its faults kills whoever issues an operation. -/
theorem releases_iff (h : opened config id bus = .ok s) (events : List Event) :
    (s.Releases events ↔ ¬s.Abandons events) ∧
      (bus.Only (· ≠ .fatal) → (∀ e ∈ events, e.Harmless) → s.Releases events) := by
  have hiff : s.Releases events ↔ ¬s.Abandons events :=
    ⟨not_abandons_of_releases h, releases_of_not_abandons h⟩
  refine ⟨hiff, fun hbus harmless => hiff.mpr ?_⟩
  rintro ⟨before, later, rfl, place, w, -, hw, hdead⟩
  have alive := run_alive (.of_opened h hbus) fun e he => harmless e (List.mem_append_left _ he)
  exact alive.workers place w hw hdead

/-- The station of the standard capture board. -/
def standard : Station where
  link := after (Link.connect initialise) (.detached "TimeResolvedFPGA" () (.new .new))
  config := .default
  window := 100000000
  busy := false
  pending := none
  workers := []

/-- The station opens with the default configuration. -/
lemma opened_standard : opened .default "TimeResolvedFPGA" (.new .new) = .ok standard := rfl

/-- A capture that fails with the loss of the board, and its result. -/
def lostCapture : List Event :=
  [.bus (.expect (some ⟨1, .reported .disconnected⟩)), .perform (some 40960), .advance 0,
    .advance 0, .advance 0, .collect]

/-- A capture that failed leaves the board free. -/
theorem released_after_loss :
    opened .default "TimeResolvedFPGA" (.new .new) = .ok standard ∧
      (Bus.new .new).Only (· ≠ .fatal) ∧ (∀ e ∈ lostCapture, e.Harmless) ∧
      standard.Releases lostCapture ∧ ¬standard.Abandons lostCapture := by
  have hbus : (Bus.new .new).Only (· ≠ .fatal) := Bus.only_of_fault_none rfl
  have harmless : ∀ e ∈ lostCapture, e.Harmless := by simp [lostCapture, Event.Harmless]
  obtain ⟨hiff, hreleases⟩ := releases_iff opened_standard lostCapture
  exact ⟨opened_standard, hbus, harmless, hreleases hbus harmless,
    hiff.mp (hreleases hbus harmless)⟩

/-! ## Workers that died -/

/-- A worker has died. -/
def Doomed (s : Station) : Prop :=
  ∃ (place : Nat) (w : Worker), s.workers[place]? = some w ∧ w.progress = .dead

/-- A worker that died stays dead when the progress of a living one is noted. -/
lemma Doomed.mark (h : s.Doomed) {place : Nat} {w : Worker} (hw : s.workers[place]? = some w)
    (hlive : w.progress ≠ .dead) (p : Progress) : (s.mark place w p).Doomed := by
  obtain ⟨j, w', hw', hdead⟩ := h
  have hne : j ≠ place := by
    rintro rfl
    cases hw.symm.trans hw'
    exact hlive hdead
  exact ⟨j, w', by rw [getElem?_mark hw, if_neg hne, hw'], hdead⟩

/-- No step of a worker brings a dead one back. -/
lemma Doomed.moves (h : s.Doomed) {place : Nat} {s' : Station} (hmoves : s.Moves place s') :
    s'.Doomed := by
  cases hmoves with
  | rest => exact h
  | read worker waiting _ =>
    exact mark (s := { s with link := _ }) h worker (by rw [waiting]; nofun) _
  | died worker waiting _ _ =>
    exact mark (s := { s with link := _ }) h worker (by rw [waiting]; nofun) _
  | cleared worker stands =>
    exact mark (s := { s with busy := false }) h worker (by rw [stands]; nofun) _
  | sent worker stands => exact h.mark worker (by rw [stands]; nofun) _

/-- No event brings a dead worker back. -/
lemma Doomed.apply (h : s.Doomed) (e : Event) : (e.apply s).Doomed := by
  have heffect := s.apply_effect e
  generalize e.apply s = s' at heffect
  cases heffect with
  | kept _ _ workers _ =>
    unfold Doomed
    rw [workers]
    exact h
  | requested =>
    obtain ⟨place, w, hw, hdead⟩ := h
    obtain ⟨hlt, -⟩ := List.getElem?_eq_some_iff.mp hw
    exact ⟨place, w, (List.getElem?_append_left hlt).trans hw, hdead⟩
  | collected => exact h
  | moved hmoves => exact h.moves hmoves

/-- A worker that died keeps the board busy for ever. -/
lemma busy_of_doomed (h : opened config id bus = .ok s) (hdoomed : (s.run events).Doomed)
    (more : List Event) : (s.run (events ++ more)).busy = true := by
  obtain ⟨place, w, hw, hdead⟩ : (s.run (events ++ more)).Doomed := by
    rw [run_append]
    exact run_invariant Doomed.apply hdoomed more
  exact (run_orderly h _).busy_iff.mpr ⟨place, w, hw, by rw [hdead]; trivial⟩

/-- The worker of a capture dies when it reads the pipe, and its result is asked for. -/
def abandonedCapture : List Event :=
  [.bus (.expect (some ⟨1, .fatal⟩)), .perform (some 40960), .advance 0, .collect]

/-- The result is given out and no capture is under way, but every later request for a valid window
on the attached board is refused. -/
theorem busy_after_death :
    opened .default "TimeResolvedFPGA" (.new .new) = .ok standard ∧
      ¬standard.Releases abandonedCapture ∧
      (standard.run abandonedCapture).link.attached = true ∧
      perform (some 40960) (standard.run abandonedCapture) =
        .error (.busy .capture) (standard.run abandonedCapture) ∧
      ∀ more, (standard.run (abandonedCapture ++ more)).busy = true := by
  have hdoomed : (standard.run abandonedCapture).Doomed := ⟨0, _, rfl, rfl⟩
  have habandons : standard.Abandons abandonedCapture :=
    ⟨abandonedCapture.take 3, [], rfl, 0, _, rfl, rfl, rfl⟩
  refine ⟨opened_standard, fun h => not_abandons_of_releases opened_standard h habandons, rfl, rfl,
    busy_of_doomed opened_standard hdoomed⟩

end PulseSequencer.Station

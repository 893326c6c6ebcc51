import PulseSequencer.Proofs.Configuration
import PulseSequencer.Proofs.Instrument.Reconfiguration
import PulseSequencer.Proofs.Instrument.Safety

/-!
# Collection windows

A collection time that callers give is looked at before it is kept, and one that is out of the
allowed range, or is not a number, is refused. The times that the configuration gives are not looked
at: they are in force until another time is kept for their mode, whether they are in the range or
not. A time in the range is above zero.

* `Span.positive_of_contains`: what an allowed range contains.
* `Instrument.Event.setup`: the counting setup after an event, and `Instrument.setup_after`, that
  it is.
* `Instrument.lastKept`: the time that was kept last for a mode.
* `Instrument.Windows`: the windows after a run, and `Instrument.windows_allowed_iff`, when all of
  them are allowed; `Instrument.zero_window_in_force` is a run in which they are not.
-/

namespace PulseSequencer

/-! ## Numbers above zero -/

section
open Float.Model

/-- Infinity, or a number above zero. -/
def AboveZero : UnpackedFloat → Prop
  | .infinity .positive | .finite .positive _ _ _ => True
  | _ => False

/-- A value is above zero if zero is less than it. -/
lemma aboveZero_iff (a : UnpackedFloat) :
    AboveZero a ↔ UnpackedFloat.lt (.zero .positive) a = true := by
  cases a with
  | notANumber | zero => exact iff_of_false id Bool.false_ne_true
  | infinity s | finite s =>
    cases s with
    | positive => exact iff_of_true trivial rfl
    | negative => exact iff_of_false id Bool.false_ne_true

/-- What is no less than a value above zero is above zero. -/
lemma AboveZero.of_le {a b : UnpackedFloat} (ha : AboveZero a) (h : UnpackedFloat.le a b = true) :
    AboveZero b := by
  rcases a with (_ | _) | _ | _ | ⟨_ | _, _, _, _⟩ <;> try exact ha.elim
  -- of a number above zero no comparison holds with one that is not
  all_goals rcases b with (_ | _) | _ | _ | ⟨_ | _, _, _, _⟩ <;> trivial

/-- A value above zero is a number. -/
lemma AboveZero.isNaN {a : UnpackedFloat} (ha : AboveZero a) : a.isNaN = false := by
  cases a with
  | notANumber => exact ha.elim
  | _ => rfl

/-- A collection time is above zero if its value is. -/
lemma gt_zero_iff (x : Float) : x > 0.0 ↔ AboveZero x.toModel.unpack := by
  have hzero : (0.0 : Float).toModel.unpack = .zero .positive := rfl
  rw [aboveZero_iff, ← hzero]
  exact decide_eq_true_iff

end

namespace Span

/-- A range that begins above zero contains numbers above zero only. -/
lemma positive_of_contains {s : Span} {x : Float} (hlow : s.low > 0.0)
    (h : s.contains x = true) : x > 0.0 ∧ x.isNaN = false := by
  have hle : s.low ≤ x := of_decide_eq_true (Bool.and_eq_true_iff.mp h).1
  have habove : AboveZero x.toModel.unpack :=
    ((gt_zero_iff s.low).mp hlow).of_le (of_decide_eq_true hle)
  exact ⟨(gt_zero_iff x).mpr habove, habove.isNaN⟩

end Span

/-! ## The counting setup -/

namespace CollectionTimes

/-- A time that was set for a mode is the time of this mode. -/
lemma get_set_same (t : CollectionTimes) (mode : CollectionMode) (seconds : Float) :
    (t.set mode seconds).get mode = seconds := by
  cases mode <;> rfl

/-- A time that was set for a mode leaves those of other modes. -/
lemma get_set_of_ne (t : CollectionTimes) {mode mode' : CollectionMode} (seconds : Float)
    (h : mode ≠ mode') : (t.set mode seconds).get mode' = t.get mode' := by
  cases mode <;> cases mode' <;> first | rfl | exact absurd rfl h

end CollectionTimes

namespace Counting

/-- A time in range passes the check. -/
lemma checkTime_of_contains {c : Counting} {seconds : Float} (h : c.range.contains seconds = true) :
    c.checkTime seconds = .ok () := if_pos h

/-- A time in range is kept for its mode. -/
lemma store_of_contains {c : Counting} {seconds : Float} (h : c.range.contains seconds = true)
    (mode : CollectionMode) :
    c.store seconds mode = .ok { c with times := c.times.set mode seconds } := by
  rw [store, checkTime_of_contains h]
  rfl

end Counting

namespace Instrument

/-- A time that is given for a mode is kept: it is in range, and if it is for normal mode there is a
board to tell of it. -/
def Takes (i : Instrument) (seconds : Float) (mode : CollectionMode) : Prop :=
  i.setup.range.contains seconds = true ∧ (mode = .normal → i.link.attached = true)

instance (i : Instrument) (seconds : Float) (mode : CollectionMode) :
    Decidable (i.Takes seconds mode) := inferInstanceAs (Decidable (_ ∧ _))

/-- The counting setup after an event. A new mode is kept if there is a board to tell of it. -/
def Event.setup (i : Instrument) : Event → Counting
  | command (.setMode mode) => if i.link.attached then { i.setup with mode } else i.setup
  | command (.setCollectionTime seconds mode) =>
    if i.Takes seconds mode then { i.setup with times := i.setup.times.set mode seconds }
    else i.setup
  | _ => i.setup

variable {i : Instrument} {e : Event} {events : List Event} {mode : CollectionMode}

/-- Work on the setup that leaves the same one however it ends. -/
lemma setup_after_transaction {x : Action Counting Unit} {asked : Counting}
    (hattached : i.link.attached = true)
    (hx : Brings x i.setup (fun _ _ c => c = asked) fun _ c => c = asked) :
    (after (transaction (Host.onCounting x)) i).setup = asked := by
  rw [setup, host, Link.state, (after_transaction_of_attached _ hattached).1]
  cases hr : Host.onCounting x i.link.held with
  | ok u held =>
    obtain ⟨k, hwork, rfl⟩ := Action.ok_of_focus hr
    obtain ⟨ps, hasked, -⟩ := hx.of_ok hwork
    rw [after_of_ok hr]
    exact hasked
  | error e held =>
    obtain ⟨k, hwork, rfl⟩ := Action.error_of_focus hr
    obtain ⟨ps, hasked, -⟩ := hx.of_error hwork
    rw [after_of_error hr]
    exact hasked

/-- A change of the mode leaves the setup that `Event.setup` tells. -/
lemma setup_after_setMode (i : Instrument) (mode : CollectionMode) :
    (after (setMode mode) i).setup = (Event.command (.setMode mode)).setup i := by
  by_cases hattached : i.link.attached = true
  · rw [setMode, setup_after_transaction hattached (Counting.brings_setMode _ mode), Event.setup,
      if_pos hattached]
  · rw [setMode, after_of_error (transaction_of_detached _ hattached), Event.setup,
      if_neg hattached]

/-- A time of differential mode is kept without the board. -/
lemma setup_after_storeTime {seconds : Float} (hrange : i.setup.range.contains seconds = true)
    (mode : CollectionMode) : (after (storeTime seconds mode) i).setup =
      { i.setup with times := i.setup.times.set mode seconds } := by
  have hasked : after (storeTime seconds mode) i =
      after (ofExcept (i.setup.store seconds mode) >>= fun counting =>
        onLink (Link.withState fun h => ((), { h with counting }))) i := rfl
  rw [hasked, Counting.store_of_contains hrange]
  rfl

/-- A time that is out of range is refused before anything else. -/
lemma after_setCollectionTime_of_refused {seconds : Float}
    (hrange : ¬i.setup.range.contains seconds = true) (mode : CollectionMode) :
    after (setCollectionTime seconds mode) i = i := by
  obtain ⟨e, hcheck⟩ : ∃ e, i.setup.checkTime seconds = .error e := ⟨_, if_neg hrange⟩
  obtain ⟨f, hasked⟩ : ∃ f : Unit → Operation Unit, setCollectionTime seconds mode i =
      (ofExcept (i.setup.checkTime seconds) >>= f) i := ⟨_, rfl⟩
  rw [after, hasked, hcheck]
  rfl

/-- With a time in range it is up to the mode what is done. -/
lemma after_setCollectionTime_of_contains {seconds : Float}
    (hrange : i.setup.range.contains seconds = true) :
    after (setCollectionTime seconds .normal) i =
        after (transaction (Host.onCounting (Counting.setNormalTime seconds))) i ∧
      after (setCollectionTime seconds .differential) i =
        after (storeTime seconds .differential) i := by
  have hcheck := Counting.checkTime_of_contains hrange
  have hnormal : setCollectionTime seconds .normal i =
      (ofExcept (i.setup.checkTime seconds) >>= fun _ =>
        transaction (Host.onCounting (Counting.setNormalTime seconds))) i := rfl
  have hdifferential : setCollectionTime seconds .differential i =
      (ofExcept (i.setup.checkTime seconds) >>= fun _ => storeTime seconds .differential) i := rfl
  rw [after, hnormal, hcheck, after, after, hdifferential, hcheck]
  exact ⟨rfl, rfl⟩

/-- A change of the collection time leaves the setup that `Event.setup` tells. -/
lemma setup_after_setCollectionTime (i : Instrument) (seconds : Float) (mode : CollectionMode) :
    (after (setCollectionTime seconds mode) i).setup =
      (Event.command (.setCollectionTime seconds mode)).setup i := by
  rw [Event.setup]
  by_cases hrange : i.setup.range.contains seconds = true
  · obtain ⟨hnormal, hdifferential⟩ := after_setCollectionTime_of_contains hrange
    cases mode with
    | differential =>
      rw [hdifferential, setup_after_storeTime hrange, if_pos ⟨hrange, nofun⟩]
    | normal =>
      rw [hnormal]
      by_cases hattached : i.link.attached = true
      · rw [if_pos ⟨hrange, fun _ => hattached⟩]
        exact setup_after_transaction hattached
          (Counting.brings_setNormalTime (Counting.store_of_contains hrange .normal))
      · rw [if_neg fun h => hattached (h.2 rfl),
          after_of_error (transaction_of_detached _ hattached)]
  · rw [after_setCollectionTime_of_refused hrange, if_neg fun h => hrange h.1]

/-- Every event leaves the setup that `Event.setup` tells. -/
lemma setup_after (e : Event) (i : Instrument) : (e.apply i).setup = e.setup i := by
  cases e with
  | bus e => rfl
  | command c =>
    by_cases hc : c.reconfigures = true
    · cases c with
      | setMode mode => exact setup_after_setMode i mode
      | setCollectionTime seconds mode => exact setup_after_setCollectionTime i seconds mode
      | _ => cases hc
    · have hkept : (Event.apply i (.command c)).setup = i.setup :=
        Command.leaves_setup (Bool.eq_false_of_not_eq_true hc) i
      rw [hkept]
      cases c <;> first | rfl | exact absurd rfl hc

/-! ## The windows in force -/

/-- The time that an event keeps for a mode, if it does. -/
def Event.keeps (i : Instrument) (mode : CollectionMode) : Event → Option Float
  | command (.setCollectionTime seconds m) =>
    if m = mode ∧ i.Takes seconds m then some seconds else none
  | _ => none

/-- The time that was kept last for a mode, if there is one. -/
def lastKept (mode : CollectionMode) : Instrument → List Event → Option Float
  | _, [] => none
  | i, e :: rest => (lastKept mode (e.apply i) rest).or (e.keeps i mode)

/-- No event changes the allowed range. -/
lemma range_apply (e : Event) (i : Instrument) : (e.apply i).setup.range = i.setup.range := by
  rw [setup_after]
  unfold Event.setup
  split <;> first | rfl | (split <;> rfl)

/-- After an event the time of a mode is the one that the event keeps, or that from before. -/
lemma times_apply (e : Event) (i : Instrument) (mode : CollectionMode) :
    (e.apply i).setup.times.get mode = (e.keeps i mode).getD (i.setup.times.get mode) := by
  rw [setup_after]
  rcases e with c | e
  case bus => rfl
  case command =>
    cases c with
    | setMode m =>
      rw [Event.setup]
      split <;> rfl
    | setCollectionTime seconds m =>
      rw [Event.setup, Event.keeps]
      by_cases htakes : i.Takes seconds m
      · rw [if_pos htakes]
        by_cases hm : m = mode
        · rw [if_pos ⟨hm, htakes⟩, ← hm]
          exact CollectionTimes.get_set_same _ _ _
        · rw [if_neg fun h => hm h.1]
          exact CollectionTimes.get_set_of_ne _ _ hm
      · rw [if_neg htakes, if_neg fun h => htakes h.2]
        rfl
    | _ => rfl

/-- A time that an event keeps is in range. -/
lemma contains_of_keeps {seconds : Float} (h : e.keeps i mode = some seconds) :
    i.setup.range.contains seconds = true := by
  unfold Event.keeps at h
  split at h
  case h_1 =>
    split at h
    case isTrue hkept =>
      cases h
      exact hkept.2.1
    case isFalse => cases h
  case h_2 => cases h

/-- No run changes the allowed range. -/
lemma range_run (i : Instrument) (events : List Event) :
    (i.run events).setup.range = i.setup.range := by
  induction events generalizing i with
  | nil => rfl
  | cons e rest ih => exact (ih (e.apply i)).trans (range_apply e i)

/-- After a run the time of a mode is the one that was kept last, or the one from before. -/
lemma times_run (i : Instrument) (events : List Event) (mode : CollectionMode) :
    (i.run events).setup.times.get mode =
      (lastKept mode i events).getD (i.setup.times.get mode) := by
  induction events generalizing i with
  | nil => rfl
  | cons e rest ih =>
    have hrest : (i.run (e :: rest)).setup.times.get mode =
        (lastKept mode (e.apply i) rest).getD ((e.apply i).setup.times.get mode) := ih (e.apply i)
    rw [hrest, times_apply, lastKept]
    cases lastKept mode (e.apply i) rest <;> rfl

/-- Times that are kept are in the allowed range. -/
lemma contains_of_lastKept {seconds : Float} (h : lastKept mode i events = some seconds) :
    i.setup.range.contains seconds = true := by
  induction events generalizing i with
  | nil => cases h
  | cons e rest ih =>
    rw [lastKept, Option.or_eq_some_iff] at h
    rcases h with hlater | ⟨-, hfirst⟩
    · rw [← range_apply e i]
      exact ih hlater
    · exact contains_of_keeps hfirst

/-- The time of a mode is in the allowed range. -/
def Allows (i : Instrument) (mode : CollectionMode) : Prop :=
  i.config.collectionRange.contains (i.setup.times.get mode) = true

/-- The windows of an instrument with a configuration, after events. -/
structure Windows (config : Configuration) (i : Instrument) (events : List Event) : Prop where
  /-- The allowed range stays, and the times that callers give are looked at against it. -/
  range : (i.run events).config.collectionRange = config.collectionRange ∧
    (i.run events).setup.range = config.collectionRange
  time : ∀ mode, (i.run events).setup.times.get mode =
    (lastKept mode i events).getD (config.collectionTimes.get mode)
  /-- A time that was kept is allowed, whatever the one of the configuration is. -/
  allowed_iff : ∀ mode, (i.run events).Allows mode ↔
    (lastKept mode i events).isSome = true ∨
      config.collectionRange.contains (config.collectionTimes.get mode) = true
  positive : ∀ mode, (i.run events).Allows mode →
    (i.run events).setup.times.get mode > 0.0 ∧
      ((i.run events).setup.times.get mode).isNaN = false
  /-- Counts are divided by the time of the current mode. -/
  rates : ∀ readTime samples j, counts readTime (i.run events) = .ok samples j → ∃ records,
    samples = Sample.ofRecords records
      ((i.run events).setup.times.get (i.run events).setup.mode) readTime

variable {config : Configuration} {id : String} {bus : Bus}

/-- An instrument begins with the counting setup of its configuration. -/
lemma counting_of_opened (h : opened config id bus = .ok i) :
    i.setup = ⟨config.collectionMode, config.collectionTimes, config.collectionRange⟩ := by
  obtain ⟨registry, -, rfl⟩ := eq_connect_of_opened h
  exact leaves_connect _

/-- After every run the windows of an opened instrument are those that were kept last. -/
lemma windows (h : opened config id bus = .ok i) (events : List Event) :
    Windows config i events := by
  obtain ⟨hregistry, hconfig⟩ := setup_of_opened h
  have hsetup := counting_of_opened h
  have hrange : (i.run events).config.collectionRange = config.collectionRange := by
    rw [(setup_run events i).2, hconfig]
  have htime (mode : CollectionMode) : (i.run events).setup.times.get mode =
      (lastKept mode i events).getD (config.collectionTimes.get mode) := by
    rw [times_run, hsetup]
  constructor
  case range => exact ⟨hrange, by rw [range_run, hsetup]⟩
  case time => exact htime
  case allowed_iff =>
    intro mode
    rw [Allows, hrange, htime]
    cases hkept : lastKept mode i events with
    | none => simp
    | some seconds =>
      -- a time that was kept has passed the check
      have hcontains := contains_of_lastKept hkept
      rw [hsetup] at hcontains
      exact iff_of_true hcontains (.inl rfl)
  case positive =>
    intro mode hallows
    rw [Allows, hrange] at hallows
    exact Span.positive_of_contains (consistent_of_ofConfiguration hregistry).range_pos hallows
  case rates =>
    intro readTime samples j hok
    obtain ⟨records, -, hsamples⟩ := records_of_ok hok
    exact ⟨records, hsamples⟩

/-- After any events the time of a mode is allowed exactly if one was kept for it or the configured
one is allowed, and then it is above zero. In every run both times are allowed exactly if the
configured ones are. -/
theorem windows_allowed_iff (h : opened config id bus = .ok i) :
    (∀ events, Windows config i events) ∧
      ((∀ events mode, (i.run events).Allows mode) ↔
        ∀ mode, config.collectionRange.contains (config.collectionTimes.get mode) = true) := by
  refine ⟨windows h, fun hall mode => ?_, fun hconfigured events mode => ?_⟩
  · -- before the first event nothing was kept
    have hfirst := ((windows h []).allowed_iff mode).mp (hall [] mode)
    exact hfirst.resolve_left nofun
  · exact ((windows h events).allowed_iff mode).mpr (.inr (hconfigured mode))

/-- A time of half a second is kept for normal mode, and a time that is not a number is not. -/
theorem windows_allowed :
    opened bareConfiguration "board" (.new .new) = .ok (after connect unconnected) ∧
      (∀ events mode, ((after connect unconnected).run events).Allows mode) ∧
      lastKept .normal (after connect unconnected)
        [.command (.setCollectionTime 0.5 .normal),
          .command (.setCollectionTime (0.0 / 0.0) .normal)] = some 0.5 := by
  have hconfigured (mode : CollectionMode) : bareConfiguration.collectionRange.contains
      (bareConfiguration.collectionTimes.get mode) = true := by
    cases mode <;> decide
  exact ⟨opened_unconnected, (windows_allowed_iff opened_unconnected).2.mpr hconfigured, by
    decide +kernel⟩

/-- A configuration in which the windows of normal mode have no length. -/
def zeroConfiguration : Configuration := { bareConfiguration with collectionTimes := ⟨0.0, 0.1⟩ }

/-- The instrument of this configuration. -/
def zeroed : Instrument := after connect
  { unconnected with
    link := .detached "board" (initialHost zeroConfiguration ⟨[], []⟩) (.new .new)
    config := zeroConfiguration }

set_option maxRecDepth 20000 in
/-- The configuration is accepted, and the rate of the first record is infinite. -/
theorem zero_window_in_force :
    opened zeroConfiguration "board" (.new .new) = .ok zeroed ∧ zeroed.setup.mode = .normal ∧
      zeroed.setup.times.get .normal = 0.0 ∧ ¬zeroed.Allows .normal ∧
      ∃ samples j,
        counts 0.0 (zeroed.run [.bus (.pushPipe Endpoint.counts (Word.toLittle 100))]) =
          .ok samples j ∧
        samples.map (·.rate.isInf) = [true] := by
  have hregistry : Registry.ofConfiguration zeroConfiguration = .ok ⟨[], []⟩ :=
    ofConfiguration_of_ordered rfl .nil
  have hopened : opened zeroConfiguration "board" (.new .new) = .ok zeroed := by
    rw [opened, hregistry]
    rfl
  refine ⟨hopened, rfl, rfl, ?_, _, _, rfl, ?_⟩
  · rw [Allows]
    decide +kernel
  · decide +kernel

end Instrument

end PulseSequencer

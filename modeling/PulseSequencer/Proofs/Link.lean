import PulseSequencer.Link
import PulseSequencer.Proofs.Outcome

/-!
# What happens on a link

To open a link is to make a first attempt to connect. Work on a link, in a transaction or to attach
a board, meets no failures on the bus but those that lie in wait, and the loss of the board.

* `Link.eq_connect_of_opened`: opening a link.
* `Link.transaction_of_ok`, `Link.transaction_cases_of_error`: how a transaction ends.
* `Link.connect_cases_of_ok`, `Link.connect_cases_of_error`: how an attempt to connect ends.
* `Link.only_transaction`, `Link.only_connect`: the failures that lie in wait afterwards.
-/

namespace PulseSequencer.Link

variable {σ α : Type}

/-- To open a link is to make a first attempt to connect. -/
lemma eq_connect_of_opened {id : String} {state : σ} {bus : Bus} {initialise : Action σ Unit}
    {l : Link σ} (h : opened id state bus initialise = .ok l) :
    l = after (connect initialise) (detached id state bus) := by
  unfold opened at h
  unfold after
  split at h
  case h_1 hl =>
    cases h
    rw [hl]
  case h_2 hl =>
    split at h
    · cases h
    · cases h
      rw [hl]

/-- A transaction that succeeds does so on an attached board, by its work. -/
lemma transaction_of_ok {work : Action σ α} {l l' : Link σ} {a : α}
    (h : transaction work l = .ok a l') :
    l.attached = true ∧ ∃ held, work l.held = .ok a held ∧ l' = { l with held } := by
  by_cases hattached : l.attached = true
  · rw [transaction, if_pos hattached] at h
    cases hwork : work l.held with
    | ok b held =>
      rw [hwork] at h
      cases h
      exact ⟨hattached, held, rfl, rfl⟩
    | error e held =>
      rw [hwork] at h
      cases h
  · rw [transaction, if_neg hattached] at h
    cases h

/-- A transaction fails if no board is attached, or if its work does. -/
lemma transaction_cases_of_error {work : Action σ α} {l l' : Link σ} {e : Error}
    (h : transaction work l = .error e l') :
    (l.attached = false ∧ e = .deviceNotConnected ∧ l' = l) ∨
      ∃ held, work l.held = .error e held ∧
        l' = { l with held, attached := !e.isDisconnection } := by
  by_cases hattached : l.attached = true
  · rw [transaction, if_pos hattached] at h
    cases hwork : work l.held with
    | ok b held =>
      rw [hwork] at h
      cases h
    | error e held =>
      rw [hwork] at h
      cases h
      exact .inr ⟨held, rfl, rfl⟩
  · rw [transaction, if_neg hattached] at h
    cases h
    exact .inl ⟨Bool.eq_false_iff.mpr hattached, rfl, rfl⟩

/-- A transaction whose answer is not used leaves what the transaction leaves. -/
lemma after_transaction_discard (x : Action σ α) (l : Link σ) :
    after (transaction (do let _ ← x)) l = after (transaction x) l := by
  by_cases hattached : l.attached = true
  · cases hx : x l.held with
    | ok a held =>
      have hdiscard : (do let _ ← x : Action σ Unit) l.held = .ok () held := bind_of_ok hx _
      simp only [after, transaction, if_pos hattached, hx, hdiscard]
    | error e held =>
      simp only [after, transaction, if_pos hattached, hx, bind_of_error hx]
  · simp only [after, transaction, if_neg hattached]

section

variable {initialise : Action σ Unit} {l l' : Link σ}

/-- The link once its connector has looked for the board. -/
def sought (l : Link σ) : Link σ :=
  { l with connector := { l.connector with attempts := l.connector.attempts + 1 } }

/-- To connect an attached board does nothing. -/
lemma connect_of_attached (hattached : l.attached = true) : connect initialise l = .ok () l := by
  rw [connect, if_pos hattached]

/-- A board that is not in its slot is looked for and not found. -/
lemma connect_of_absent (hdetached : l.attached = false) (habsent : l.bus.board.present = false) :
    connect initialise l = .error (.transport (.deviceNotFound l.connector.deviceId)) l.sought := by
  unfold connect
  rw [if_neg (Bool.eq_false_iff.mp hdetached)]
  exact if_neg (Bool.eq_false_iff.mp habsent)

/-- A board in its slot is attached exactly if its initialisation succeeds. -/
lemma connect_of_present (hdetached : l.attached = false) (hpresent : l.bus.board.present = true) :
    connect initialise l = match initialise l.held with
      | .ok _ held => .ok () { l.sought with held, attached := true }
      | .error e held => .error e { l.sought with held } := by
  unfold connect
  rw [if_neg (Bool.eq_false_iff.mp hdetached)]
  exact if_pos hpresent

/-- An attempt to connect succeeds if a board is attached, or if the initialisation succeeds. -/
lemma connect_cases_of_ok {u : Unit} (h : connect initialise l = .ok u l') :
    l' = l ∨ initialise l.held = .ok u l'.held := by
  cases hattached : l.attached with
  | true =>
    rw [connect_of_attached hattached] at h
    cases h
    exact .inl rfl
  | false =>
    cases hpresent : l.bus.board.present with
    | false =>
      rw [connect_of_absent hattached hpresent] at h
      cases h
    | true =>
      rw [connect_of_present hattached hpresent] at h
      cases hr : initialise l.held <;> rw [hr] at h <;> cases h
      exact .inr rfl

/-- An attempt to connect fails if no board is in its slot, or if the initialisation does. -/
lemma connect_cases_of_error {e : Error} (h : connect initialise l = .error e l') :
    (e = .transport (.deviceNotFound l.connector.deviceId) ∧ l'.held = l.held) ∨
      initialise l.held = .error e l'.held := by
  cases hattached : l.attached with
  | true =>
    rw [connect_of_attached hattached] at h
    cases h
  | false =>
    cases hpresent : l.bus.board.present with
    | false =>
      rw [connect_of_absent hattached hpresent] at h
      cases h
      exact .inl ⟨rfl, rfl⟩
    | true =>
      rw [connect_of_present hattached hpresent] at h
      cases hr : initialise l.held <;> rw [hr] at h <;> cases h
      exact .inr rfl

end

variable {A : Failure → Prop} {E : α → List Primitive → σ → Prop} {F : List Primitive → σ → Prop}
  {l : Link σ}

/-- The failures that lie in wait behind an action were there before. -/
lemma only_after {work : Action σ α} {s : σ} {bus : Bus} (hwork : Brings work s E F)
    (hA : A (.reported .disconnected)) (honly : bus.Only A) :
    (after work ⟨s, bus⟩).bus.Only A := by
  cases hr : work ⟨s, bus⟩ with
  | ok a held =>
    obtain ⟨_, -, hcarries⟩ := hwork.of_ok hr
    rw [after_of_ok hr]
    exact hcarries.only honly
  | error e held =>
    obtain ⟨_, -, hfails⟩ := hwork.of_error hr
    obtain ⟨_, -, -, honly'⟩ := hfails.only hA honly
    rw [after_of_error hr]
    exact honly'

/-- If only failures with `A` lie in wait before a transaction, the same holds after it. -/
lemma only_transaction {work : Action σ α} (hwork : Brings work l.state E F)
    (hA : A (.reported .disconnected)) (honly : l.bus.Only A) :
    (after (transaction work) l).bus.Only A := by
  obtain ⟨attached, connector, ⟨state, bus⟩⟩ := l
  cases attached with
  | false => exact honly
  | true =>
    have hafter : (after work ⟨state, bus⟩).bus.Only A := only_after hwork hA honly
    unfold after at hafter
    simp only [after, transaction, if_true]
    cases hr : work ⟨state, bus⟩ <;> rw [hr] at hafter <;> exact hafter

/-- If only failures with `A` lie in wait before a connect, the same holds after it. -/
lemma only_connect {initialise : Action σ Unit} {E : Unit → List Primitive → σ → Prop}
    (hinit : Brings initialise l.state E F) (hA : A (.reported .disconnected))
    (honly : l.bus.Only A) : (after (connect initialise) l).bus.Only A := by
  obtain ⟨attached, connector, ⟨state, bus⟩⟩ := l
  cases attached with
  | true => exact honly
  | false =>
    by_cases hpresent : bus.board.present = true
    · have hafter : (after initialise ⟨state, bus⟩).bus.Only A := only_after hinit hA honly
      unfold after at hafter
      simp only [after, connect, Bool.false_eq_true, if_false, if_pos hpresent]
      cases hr : initialise ⟨state, bus⟩ <;> rw [hr] at hafter <;> exact hafter
    · simp only [after, connect, Bool.false_eq_true, if_false, if_neg hpresent]
      exact honly

/-- A transaction fails with a failure that lay in wait or with the loss of the board, if there was
one. -/
lemma error_of_transaction {work : Action σ α} (hwork : Brings work l.state E F)
    (hA : A (.reported .disconnected)) (honly : l.bus.Only A) {e : Error} {l' : Link σ}
    (h : transaction work l = .error e l') :
    e = .deviceNotConnected ∨ ∃ f : Failure, e = f.error ∧ A f := by
  rcases transaction_cases_of_error h with ⟨-, he, -⟩ | ⟨held, hr, -⟩
  · exact .inl he
  · obtain ⟨_, -, hfails⟩ := hwork.of_error hr
    obtain ⟨f, hf, hAf, -⟩ := hfails.only hA honly
    exact .inr ⟨f, hf, hAf⟩

end PulseSequencer.Link
